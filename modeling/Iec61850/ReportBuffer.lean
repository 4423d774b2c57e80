import Iec61850.ReportLoss

/-! The buffer of a block under all operations of the engine, and what an enable sends at once. -/
namespace Iec61850.Server
open Mms List

structure Kept (seed : UInt32) (rs : RcbState) (w : Work) : Prop where
  depth : w.st.buffer.length ≤ rs.maxBuffer
  waiting : Waiting seed w
  tracked : Tracked rs w

variable {c : Ctx} {rs : RcbState} {w w' : Work} {e : ReportEntry} {seed : UInt32} {conn : ConnId}
  {ip : Option IpAddr} {id : List UInt8} {sc : ServerConn} {v : Value}

lemma discardOldest_depth (fuel : ℕ) (w : Work) (h : w.st.buffer.length ≤ rs.maxBuffer + fuel) :
    (discardOldest rs fuel w).st.buffer.length ≤ rs.maxBuffer := by
  induction fuel generalizing w with
  | zero => exact h
  | succ fuel ih =>
    rw [discardOldest]
    split
    next hlt =>
      apply ih
      have hlen : (discardOne w).st.buffer.length = w.st.buffer.length - 1 := by
        rw [discardOne]
        split
        · next hbuf => simp [hbuf]
        · next hbuf => split <;> simp [hbuf, note]
      omega
    · next hle => omega

lemma kept_depth : (kept c rs e w).st.buffer.length ≤ rs.maxBuffer := by
  apply discardOldest_depth
  have hlen : (keep c rs (stamped c e) w).st.buffer.length = w.st.buffer.length + 1 := by
    simp [keep, nextEntryId, note]
  omega

lemma kept_rule (c : Ctx) (rs : RcbState) (hb : rs.buffered) : ReportRule c rs (Kept c.entrySeed rs) where
  window _ _ _ h := ⟨h.depth, (waiting_rule c rs hb).window _ _ _ h.waiting,
    (tracked_rule c rs).window _ _ _ h.tracked⟩
  task _ _ _ h := ⟨h.depth, (waiting_rule c rs hb).task _ _ _ h.waiting, (tracked_rule c rs).task _ _ _ h.tracked⟩
  captured _ _ h := ⟨h.depth, (waiting_rule c rs hb).captured _ _ h.waiting,
    (tracked_rule c rs).captured _ _ h.tracked⟩
  committed _ _ hb' _ := by simp [hb] at hb'
  sent _ _ hb' _ _ := by simp [hb] at hb'
  kept _ _ _ h := ⟨kept_depth, waiting_kept h.waiting, (tracked_rule c rs).kept _ _ hb h.tracked⟩
  handed _ _ _ he hget h := by
    refine ⟨?_, (waiting_rule c rs hb).handed _ _ hb he hget h.waiting,
      (tracked_rule c rs).handed _ _ hb he hget h.tracked⟩
    rw [advance, (transmit_buffer c rs _ _).1]
    exact h.depth

lemma Kept.of_same (h : Kept seed rs w) (hb : w'.st.buffer = w.st.buffer)
    (hn : w'.st.next = w.st.next) (hq : w'.st.sqNum = w.st.sqNum)
    (hr : w'.st.resyncId = w.st.resyncId) (ht : w'.trace = w.trace)
    (hc : w'.entryCounter = w.entryCounter) : Kept seed rs w' := by
  have hsent : ∀ r accepted, .sent r accepted ∈ w'.trace → .sent r accepted ∈ w.trace := by
    rw [ht]
    exact fun _ _ hr => hr
  refine ⟨by rw [hb]; exact h.depth, ⟨?_, ?_⟩, h.tracked.of_eq ht hq hr⟩
  · apply h.waiting.numbered.of_eq hb _ (Nat.le_of_eq hc.symm) hsent
    rw [hb, hn]
    exact h.waiting.numbered.next_le
  rw [hc]
  intro hlt
  exact (h.waiting.unsent hlt).of_eq hb hn hsent

lemma Kept.reserves (h : Kept seed rs w) (hr : Reserves rs w w') : Kept seed rs w' := by
  obtain ⟨_, _, _, _, _, _, _, -, rfl⟩ := hr
  exact h.of_same rfl rfl rfl rfl rfl rfl

lemma resume_buffer (st : RcbRuntime) : (resume st).buffer = st.buffer ∧ (resume st).sqNum = st.sqNum := by
  obtain ⟨_, _, h⟩ := resume_eq st
  rw [h]
  exact ⟨rfl, rfl⟩

lemma resume_next_le {st : RcbRuntime} (h : st.next ≤ st.buffer.length) : (resume st).next ≤ st.buffer.length := by
  unfold resume
  split
  · exact h
  dsimp only
  split
  · exact Nat.zero_le _
  split
  next i hi =>
    obtain ⟨hlt, -⟩ := findIdx?_eq_some_iff_getElem.mp hi
    exact hlt
  · exact Nat.zero_le _

lemma transmitFrom_next (c : Ctx) (rs : RcbState) (fuel : ℕ) (w : Work) (h : w.st.next + fuel = w.st.buffer.length) :
    (transmitFrom c rs fuel w).st.next = (transmitFrom c rs fuel w).st.buffer.length ∧
      (transmitFrom c rs fuel w).st.buffer = w.st.buffer := by
  induction fuel generalizing w with
  | zero => exact ⟨h, rfl⟩
  | succ fuel ih =>
    rw [transmitFrom]
    split
    next hno =>
      have hle := getElem?_eq_none_iff.mp hno
      omega
    next e hget =>
    obtain ⟨hbuf, hnx, -⟩ := transmit_buffer c rs e w
    have hstep := ih (advance (transmit c rs e w)) (by
      simp only [advance, hbuf, hnx]
      omega)
    refine ⟨hstep.1, hstep.2.trans ?_⟩
    simp only [advance, hbuf]

def resumed (rs : RcbState) (conn : ConnId) (ip : Option IpAddr) (w : Work) : Work :=
  { prepared rs conn ip w with st := resume (prepared rs conn ip w).st }

lemma enable_buffered (hb : rs.buffered) :
    enable c rs conn ip w = startIntegrity c rs (transmitBuffered c rs (resumed rs conn ip w)) := by
  rw [enable_eq, deliver, if_pos hb]
  rfl

lemma prepared_counter : (prepared rs conn ip w).entryCounter = w.entryCounter := by
  obtain ⟨_, ⟨_, _, _, _, _, _, _, -, rfl⟩, heq⟩ := prepared_eq rs conn ip w
  rw [heq]
  rfl

lemma tracked_resumed (h : Tracked rs w) : Tracked rs (resumed rs conn ip w) := by
  obtain ⟨_, _, _, _, hst⟩ := prepared_st rs conn ip w
  have htr : (resumed rs conn ip w).trace = w.trace ++ [.enabled conn] := prepared_trace
  refine ⟨?_, ?_, ?_⟩
  · rw [htr]
    apply h.counted.append
    intro r accepted hev
    cases hev
  · have hsq : (resumed rs conn ip w).st.sqNum = 0 := by
      rw [resumed, (resume_buffer _).2, hst]
    rw [hsq, htr]
    simp [sinceEnabled]
  · have hreq : (resumed rs conn ip w).st.resyncId = none := (resume_control _).resyncId
    rw [hreq, htr]
    simp [requested]

lemma resumed_buffer : (resumed rs conn ip w).st.buffer = w.st.buffer := by
  obtain ⟨_, _, _, _, hst⟩ := prepared_st rs conn ip w
  rw [resumed, (resume_buffer _).1, hst]

lemma numbered_resumed (h : Numbered seed w) : Numbered seed (resumed rs conn ip w) := by
  obtain ⟨_, _, _, _, hst⟩ := prepared_st rs conn ip w
  apply h.of_eq resumed_buffer
  · rw [resumed_buffer, resumed, hst]
    exact resume_next_le h.next_le
  · exact Nat.le_of_eq prepared_counter.symm
  intro r accepted hr
  have htr : (resumed rs conn ip w).trace = w.trace ++ [.enabled conn] := prepared_trace
  rw [htr] at hr
  simpa using hr

lemma kept_enable (hb : rs.buffered) (h : Kept c.entrySeed rs w) : Kept c.entrySeed rs (enable c rs conn ip w) := by
  have hn : Numbered c.entrySeed (resumed rs conn ip w) := numbered_resumed h.waiting.numbered
  have henabled : (resumed rs conn ip w).st.enabled := by
    obtain ⟨_, _, _, _, hst⟩ := prepared_st rs conn ip w
    exact (resume_control _).enabled.trans (by rw [hst])
  -- Everything from the cursor on is handed over, so nothing waits.
  obtain ⟨hend, hbuf⟩ := transmitFrom_next c rs _ (resumed rs conn ip w) (Nat.add_sub_cancel' hn.next_le)
  have hd : Kept c.entrySeed rs (transmitBuffered c rs (resumed rs conn ip w)) := by
    refine ⟨?_, ⟨?_, ?_⟩, ?_⟩
    · rw [transmitBuffered, hbuf, resumed_buffer]
      exact h.depth
    · exact (numbered_rule c rs hb).transmitFrom hb _ _ henabled hn
    · intro _ e he
      rw [transmitBuffered, hend, drop_length] at he
      cases he
    · exact (tracked_rule c rs).transmitFrom hb _ _ henabled (tracked_resumed h.tracked)
  rw [enable_buffered hb]
  exact hd.reserves .startIntegrity

lemma kept_disable (hb : rs.buffered) (h : Kept c.entrySeed rs w) : Kept c.entrySeed rs (disable c rs w) := by
  have hf := (kept_rule c rs hb).events.flushPending h
  have hu : Kept c.entrySeed rs (unsubscribe (flushPending c rs w)) := hf.of_same rfl rfl rfl rfl rfl rfl
  rw [disable, if_pos hb]
  exact hu.reserves .release

lemma kept_disableConnBlock (hb : rs.buffered) (h : Kept c.entrySeed rs w) :
    Kept c.entrySeed rs (disableConnBlock c conn rs w) :=
  disableConnBlock_rule (fun _ => h) (fun _ => kept_disable hb h) fun _ h => h.reserves .release

lemma kept_purgeBlock (h : Kept seed rs w) : Kept seed rs (purgeBlock w) := by
  have hsent (r : Report) (accepted : Bool) (hr : .sent r accepted ∈ (purgeBlock w).trace) :
      .sent r accepted ∈ w.trace := by simpa [purgeBlock, note] using hr
  refine ⟨Nat.zero_le _, ⟨⟨Nat.le_refl _, ⟨[], rfl, .nil, ?_⟩, ?_⟩, ?_⟩, ⟨?_, ?_, ?_⟩⟩
  · intro k hk
    cases hk
  · intro r accepted hr
    exact h.waiting.numbered.sent r accepted (hsent r accepted hr)
  · intro _ e he
    simp [purgeBlock, note, RcbRuntime.purge] at he
  · apply h.tracked.counted.append
    intro r accepted hev
    cases hev
  · have hsq : (purgeBlock w).st.sqNum = w.st.sqNum := rfl
    rw [hsq, h.tracked.sqNum]
    simp [purgeBlock, note, sinceEnabled]
  · simp [purgeBlock, note, RcbRuntime.purge, requested]

lemma kept_resync (h : Kept seed rs w) :
    Kept seed rs (note (.resync id) { w with st := { w.st with resyncId := some id } }) := by
  have hsent (r : Report) (accepted : Bool) (hr : .sent r accepted ∈ w.trace ++ [.resync id]) :
      .sent r accepted ∈ w.trace := by simpa using hr
  refine ⟨h.depth, ⟨?_, ?_⟩, ⟨?_, ?_, ?_⟩⟩
  · exact h.waiting.numbered.of_eq rfl h.waiting.numbered.next_le (Nat.le_refl _) hsent
  · intro hc
    exact (h.waiting.unsent hc).of_eq rfl rfl hsent
  · apply h.tracked.counted.append
    intro r accepted hev
    cases hev
  · have hsq := h.tracked.sqNum
    simpa [note, sinceEnabled] using hsq
  · simp [note, requested]

lemma kept_write {attr : String} (hb : rs.buffered) :
    WriteRule c attr v conn ip rs (Kept c.entrySeed rs) (Kept c.entrySeed rs) where
  task h := h.of_same rfl rfl rfl rfl rfl rfl
  taken h _ := h.reserves .take
  reserved h _ := h.reserves .take
  released h _ _ := h.reserves .release
  idle h _ _ := h
  stopped h := h.of_same rfl rfl rfl rfl rfl rfl
  enabled h _ _ := kept_enable hb h
  disabled h _ := kept_disable hb h
  reported h := (kept_rule c rs hb).events.reportAll h
  purged h _ := kept_purgeBlock h
  answered h _ := h.of_same rfl rfl rfl rfl rfl rfl
  resynced h := kept_resync h
  revised h _ := h.of_same rfl rfl rfl rfl rfl rfl

/-- The entries are reported one after the other, numbered from the first argument on. A report that is asked for
`BufOvfl` carries the flag, which is raised again when the report before it was refused. -/
def Sends (width : ℕ) : ℕ → Bool → List ReportEntry → List Event → Prop
  | _, _, [], events => events = []
  | n, flag, e :: rest, events => ∃ r accepted later, events = .sent r accepted :: later ∧
    r.entry = e ∧ r.seq = n ∧ (OptFlds.has r.opt OptFlds.bufOvfl = true → r.tells = flag) ∧ Sends width ((n + 1) % 2 ^ width) (!accepted) rest later

lemma transmitTo_sent (c : Ctx) (rs : RcbState) (e : ReportEntry) (conn : ConnId) (sc : ServerConn)
    (w : Work) : ∃ r accepted, (transmitTo c rs e conn sc w).trace = w.trace ++ [.sent r accepted] ∧
      r.entry = e ∧ r.seq = w.st.sqNum ∧
      (OptFlds.has r.opt OptFlds.bufOvfl = true → r.tells = w.st.bufOverflow) ∧
      (transmitTo c rs e conn sc w).st.sqNum = (w.st.sqNum + 1) % 2 ^ sqNumWidth rs ∧
      (transmitTo c rs e conn sc w).st.bufOverflow = (!accepted && rs.buffered) := by
  refine ⟨_, _, rfl, rfl, rfl, ?_, rfl, rfl⟩
  intro hasks
  rw [Report.tells, hasks, Bool.true_and]
  rfl

lemma transmitFrom_sends (hb : rs.buffered) (fuel : ℕ) (w : Work)
    (hl : ∃ sc, Linked w conn sc) (h : w.st.next + fuel = w.st.buffer.length) :
    ∃ events, (transmitFrom c rs fuel w).trace = w.trace ++ events ∧
      Sends (sqNumWidth rs) w.st.sqNum w.st.bufOverflow (w.st.buffer.drop w.st.next) events := by
  induction fuel generalizing w with
  | zero =>
    refine ⟨[], by simp [transmitFrom], ?_⟩
    have hnil : w.st.buffer.drop w.st.next = [] := by
      rw [List.drop_eq_nil_iff]
      omega
    rw [hnil]
    rfl
  | succ fuel ih =>
    rw [transmitFrom]
    split
    next hno =>
      have hle := List.getElem?_eq_none_iff.mp hno
      omega
    next e hget =>
    obtain ⟨sc, hl⟩ := hl
    obtain ⟨hlt, heq⟩ := List.getElem?_eq_some_iff.mp hget
    have htransmit : transmit c rs e w = transmitTo c rs e conn sc w := by
      simp [transmit, hl.1, hl.2]
    obtain ⟨hbuf, hnx, -⟩ := transmit_buffer c rs e w
    have hlinked : ∃ sc', Linked (advance (transmit c rs e w)) conn sc' :=
      linked_of_frame hl transmit_control.conn (transmit_frame.trans advance_frame)
    obtain ⟨events, htr, hsnd⟩ := ih (advance (transmit c rs e w)) hlinked (by
      simp only [advance, hbuf, hnx]
      omega)
    obtain ⟨r, accepted, hev, hentry, hseq, hflag, hsq, hovfl⟩ := transmitTo_sent c rs e conn sc w
    have hdrop : w.st.buffer.drop w.st.next = e :: w.st.buffer.drop (w.st.next + 1) := by
      rw [List.drop_eq_getElem_cons hlt, heq]
    refine ⟨.sent r accepted :: events, ?_, ?_⟩
    · have hone : (advance (transmit c rs e w)).trace = w.trace ++ [.sent r accepted] := by
        rw [← hev, ← htransmit]
        rfl
      rw [htr, hone, List.append_assoc]
      rfl
    rw [hdrop]
    refine ⟨r, accepted, events, rfl, hentry, hseq, hflag, ?_⟩
    simp only [advance, hbuf, hnx] at hsnd
    rw [htransmit, hsq, hovfl, hb, Bool.and_true] at hsnd
    exact hsnd

lemma resume_congr {st st' : RcbRuntime} (hb : st'.buffer = st.buffer) (hn : st'.next = st.next)
    (hr : st'.resyncId = st.resyncId) (ho : st'.bufOverflow = st.bufOverflow) :
    (resume st').next = (resume st).next ∧ (resume st').bufOverflow = (resume st).bufOverflow := by
  unfold resume
  rw [hr]
  split
  · exact ⟨hn, ho⟩
  dsimp only
  split
  · exact ⟨rfl, ho⟩
  simp only [RcbRuntime.bufferIndex, hb]
  split
  · exact ⟨rfl, ho⟩
  · exact ⟨rfl, rfl⟩

lemma enable_sends (c : Ctx) (ip : Option IpAddr) (hb : rs.buffered)
    (hsc : w.conns.lookup conn = some sc) (hn : w.st.next ≤ w.st.buffer.length) :
    ∃ events, (enable c rs conn ip w).trace = w.trace ++ .enabled conn :: events ∧
      Sends (sqNumWidth rs) 0 (resume w.st).bufOverflow (w.st.buffer.drop (resume w.st).next) events := by
  obtain ⟨_, _, _, _, hst⟩ := prepared_st rs conn ip w
  obtain ⟨sc', hl⟩ := prepared_linked rs ip hsc
  have hsm : (resumed rs conn ip w).st.next = (resume w.st).next ∧
      (resumed rs conn ip w).st.bufOverflow = (resume w.st).bufOverflow := by
    apply resume_congr <;> rw [hst]
  have hle : (resumed rs conn ip w).st.next ≤ (resumed rs conn ip w).st.buffer.length := by
    rw [hsm.1, resumed_buffer]
    exact resume_next_le hn
  have hlinked : ∃ sc, Linked (resumed rs conn ip w) conn sc := ⟨sc', (resume_control _).conn.trans hl.1, hl.2⟩
  obtain ⟨events, htr, hsnd⟩ := transmitFrom_sends hb _ (resumed rs conn ip w) hlinked (Nat.add_sub_cancel' hle)
  have hsq : (resumed rs conn ip w).st.sqNum = 0 := by
    rw [resumed, (resume_buffer _).2, hst]
  rw [hsq, hsm.1, hsm.2, resumed_buffer] at hsnd
  refine ⟨events, ?_, hsnd⟩
  have hprepared : (resumed rs conn ip w).trace = w.trace ++ [.enabled conn] := prepared_trace
  rw [enable_buffered hb, Reserves.startIntegrity.trace, transmitBuffered, htr, hprepared, append_assoc]
  rfl

open Block RcbRuntime

/-- A buffer within its depth whose entries have different identifiers, in the order of issue, and a block
whose reports are counted from each enable. -/
structure BufferInOrder (seed : UInt32) (b : Block) : Prop where
  cursor : b.st.next ≤ b.st.buffer.length
  depth : b.st.buffer.length ≤ b.rs.maxBuffer
  distinct : (b.st.buffer.map ReportEntry.id).Nodup
  issued : ∃ ks : List ℕ, b.st.buffer.map ReportEntry.id = ks.map (entryNo seed) ∧ ks.Pairwise (· < ·)
  counted : Counted b.rs b.trace

/-- An association took a report of the entry. -/
def transmitted (trace : List Event) (e : ReportEntry) : Bool :=
  trace.any fun
    | .sent r true => r.entry.id == e.id
    | _ => false

/-- No association refused a report of an entry that is still in the buffer. -/
def unrefused (b : Block) : Bool :=
  b.trace.all fun
    | .sent r false => b.st.buffer.all fun e => e.id != r.entry.id
    | _ => true

def entriesAfter (id : List UInt8) (buffer : List ReportEntry) : List ReportEntry :=
  (buffer.dropWhile fun e => e.id != id).tail

def resyncLost (b : Block) : Bool :=
  (requested b.trace).any fun id =>
    !isZeroEntryId id && !b.st.buffer.any fun e => e.id == id

def owedEntries (b : Block) : List ReportEntry :=
  match requested b.trace with
  | none => b.st.buffer.filter fun e => !transmitted b.trace e
  | some id =>
    if isZeroEntryId id then b.st.buffer
    else if b.st.buffer.any fun e => e.id == id then entriesAfter id b.st.buffer
    else b.st.buffer

/-- From `b` to `b'` the block was enabled and sent at once what it owed, numbered from zero on; when the resync
point was lost the first report carries a true `BufOvfl` if `OptFlds` asks for it. -/
def Resumes (conn : ConnId) (b b' : Block) : Prop :=
  b'.rs = b.rs ∧ ∃ events flag, b'.trace = b.trace ++ .enabled conn :: events ∧
    Sends (sqNumWidth b.rs) 0 flag (owedEntries b) events ∧ (resyncLost b = true → flag = true)

/-- A client's request writes `RptEna` true to a block, and the write is accepted. -/
structure Enables (cfg : Config) (s : State) (b : Block) (conn : ConnId) (domain item : String)
    (v : Value) (refusal : Option DataAccessError) (now : SystemTime) : Prop where
  mem : b ∈ s.blocks
  key : rcbKey domain item = some (b.rs.key, "RptEna")
  on : v.asBool = true
  request : ∃ sc ∈ s.conns.lookup conn, sc.inRequest = true
  accepted : (writeOne cfg (cfg.ctx now true) conn domain item v refusal s).2.isOk = true

/-- Every enable of a buffered block in a state that meets a condition sends what it owes. -/
def EnablesResume (cfg : Config) (s : State) (C : Block → Prop) : Prop :=
  ∀ b conn domain item v refusal now, Enables cfg s b conn domain item v refusal now →
    b.rs.buffered = true → C b → ∃ b' ∈ (step cfg s (.write conn domain item v refusal now)).blocks, Resumes conn b b'

/-- No association ends while a window is open for it, and a client that asks to resume does not skip entries. -/
def KeepsUp (s : State) : Step → Prop
  | .endAssociation conn _ => ∀ b ∈ s.blocks,
    b.rs.buffered = true → b.st.conn = some conn → b.st.pending = none
  | .write _ domain item v _ _ => ∀ p ∈ rcbKey domain item, ∀ b ∈ s.blocks,
    b.rs.key = p.1 → b.rs.buffered = true → enables p.2 v = true → ResumesBack b.st
  | _ => True

instance (s : State) (x : Step) : Decidable (KeepsUp s x) := by
  apply @Step.casesOn (fun x => Decidable (KeepsUp s x)) x <;> intros <;> dsimp only [KeepsUp] <;> infer_instance

lemma tends_of_keepsUp {s : State} {x : Step} (h : KeepsUp s x) : Tends Outbox.Delivered s x := by
  cases x with
  | endAssociation conn now => exact h
  | write conn domain item v refusal now =>
    intro p hp b hb hk hbuf
    exact ⟨h p hp b hb hk hbuf, fun _ => .clear _⟩
  | _ => trivial

variable {cfg : Config} {s : State} {x : Step}

def KeptIn (seed : UInt32) (g : Engine) (b : Block) : Prop :=
  b.rs.buffered = true → Kept seed b.rs (b.work g)

lemma keptIn_of_counter {g g' : Engine} {b : Block} (h : KeptIn seed g b)
    (hc : g.entryCounter ≤ g'.entryCounter) : KeptIn seed g' b := by
  intro hb
  obtain ⟨hdepth, ⟨hnum, hunsent⟩, htracked⟩ := h hb
  refine ⟨hdepth, ⟨hnum.of_eq rfl hnum.next_le hc fun _ _ hr => hr, ?_⟩, htracked.of_eq rfl rfl rfl⟩
  intro hlt
  have hold : g.entryCounter < 2 ^ 32 := Nat.lt_of_le_of_lt hc hlt
  exact (hunsent hold).of_eq rfl rfl fun _ _ hr => hr

lemma keptIn_undisturbed (seed : UInt32) : Undisturbed anyTwo (KeptIn seed) := by
  refine ⟨?_, ?_⟩
  · intro g g' b ha h
    exact keptIn_of_counter h ha.counter
  · intro names rs w w' b hf _ h
    exact keptIn_of_counter h hf.counter

lemma keptIn_rule (cfg : Config) : BlockRule anyTwo anyChange cfg (KeptIn cfg.entrySeed) where
  undisturbed := keptIn_undisturbed _
  beside _ _ _ _ h := keptIn_of_counter h (Nat.le_refl _)
  update now onRuntime _ b _ h hb := (kept_rule (cfg.ctx now onRuntime) b.rs hb).events.onUpdateBlock (h hb)
  window now _ b _ h hb := (kept_rule (cfg.ctx now true) b.rs hb).events.windowTask (h hb)
  reservation _ _ _ h hb := (h hb).reserves .reservationTask
  integrity now _ b _ h hb := (kept_rule (cfg.ctx now true) b.rs hb).events.integrityTask (h hb)

lemma keptIn_step (hn : (s.blocks.map fun b => b.rs.key).Nodup)
    (h : ∀ b ∈ s.blocks, KeptIn cfg.entrySeed s.toEngine b) :
    ∀ b ∈ (step cfg s x).blocks, KeptIn cfg.entrySeed (step cfg s x).toEngine b := by
  refine step_forall (keptIn_rule cfg) (anyTwo_pairwise _) hn (fun _ _ _ _ => trivial) ?_ ?_ h
  · intro b attr v conn now m hw
    refine ⟨fun _ _ _ => trivial, ?_⟩
    intro _ hb
    have hkp : Kept cfg.entrySeed b.rs (b.written s m) := keptIn_of_counter (h b hw.mem) (Nat.le_refl _) hb
    exact (kept_write (c := cfg.ctx now true) hb).onRcbWrite hkp
  intro conn now sc _ _
  refine onBlocks_forall (keptIn_undisturbed cfg.entrySeed) (keptIn_undisturbed _)
    (fun _ _ => disableConnBlock_frame) ?_ (anyTwo_pairwise _) ?_
  · intro b g h hb
    exact kept_disableConnBlock (c := cfg.ctx now true) hb (h hb)
  · intro b hb
    exact keptIn_of_counter (h b hb) (Nat.le_refl _)

variable {b : Block}

lemma entriesAfter_eq {buffer : List ReportEntry} {i : ℕ}
    (h : buffer.findIdx? (fun e => e.id == id) = some i) : entriesAfter id buffer = buffer.drop (i + 1) := by
  have hidx : buffer.findIdx (fun e => e.id == id) = i := by
    rw [findIdx?_eq_some_iff_findIdx_eq] at h
    exact h.2
  have hnot : (fun e : ReportEntry => !(e.id != id)) = fun e => e.id == id := by
    funext e
    simp [bne]
  rw [entriesAfter, dropWhile_eq_drop_findIdx_not, tail_drop, hnot, hidx]

lemma transmitted_iff {trace : List Event} : transmitted trace e ↔ ∃ r, .sent r true ∈ trace ∧ r.entry.id = e.id := by
  rw [transmitted, any_eq_true]
  constructor
  · rintro ⟨ev, hev, hid⟩
    split at hid
    · exact ⟨_, hev, eq_of_beq hid⟩
    · cases hid
  · rintro ⟨r, hr, hid⟩
    exact ⟨_, hr, beq_iff_eq.mpr hid⟩

lemma taken_of_unrefused {r : Report} {accepted : Bool} (h : unrefused b) (hr : .sent r accepted ∈ b.trace)
    (he : r.entry ∈ b.st.buffer) : accepted := by
  cases accepted with
  | true => rfl
  | false =>
    have hno := all_eq_true.mp (all_eq_true.mp h _ hr) r.entry he
    simp at hno

lemma filter_not_transmitted {g : Engine} (hsent : (b.work g).outbox.Delivered) (hu : Unsent (b.work g))
    (href : unrefused b) :
    (b.st.buffer.filter fun e => !transmitted b.trace e) = b.st.buffer.drop b.st.next := by
  have htake : (b.st.buffer.take b.st.next).filter (fun e => !transmitted b.trace e) = [] := by
    rw [filter_eq_nil_iff]
    intro e he
    obtain ⟨told, taken, hm⟩ := hsent.reached e he
    obtain ⟨ev, hev, hnotice⟩ := mem_filterMap.mp hm
    have htr : transmitted b.trace e := by
      cases ev <;> simp [toNotice] at hnotice
      next r accepted =>
      obtain ⟨rfl, -⟩ := hnotice
      obtain rfl := taken_of_unrefused href hev (mem_of_mem_take he)
      exact transmitted_iff.mpr ⟨r, hev, rfl⟩
    simp [htr]
  have hdrop : (b.st.buffer.drop b.st.next).filter (fun e => !transmitted b.trace e) =
      b.st.buffer.drop b.st.next := by
    rw [filter_eq_self]
    intro e he
    rw [Bool.not_eq_true', ← Bool.not_eq_true, transmitted_iff]
    rintro ⟨r, hr, hid⟩
    exact hu e he r true hr hid
  calc (b.st.buffer.filter fun e => !transmitted b.trace e)
    _ = (b.st.buffer.take b.st.next ++ b.st.buffer.drop b.st.next).filter
        fun e => !transmitted b.trace e := by rw [take_append_drop]
    _ = b.st.buffer.drop b.st.next := by rw [filter_append, htake, hdrop, nil_append]

lemma resume_owed {g : Engine} (hreq : b.st.resyncId = requested b.trace) (hno : requested b.trace = none →
      (b.work g).outbox.Delivered ∧ Unsent (b.work g) ∧ unrefused b) :
    b.st.buffer.drop (resume b.st).next = owedEntries b ∧ (resyncLost b → (resume b.st).bufOverflow) := by
  unfold resume owedEntries resyncLost
  rw [hreq]
  rcases hq : requested b.trace with _ | id
  · obtain ⟨hsent, hu, href⟩ := hno hq
    exact ⟨(filter_not_transmitted hsent hu href).symm, by simp⟩
  by_cases hz : isZeroEntryId id
  · simp [hz]
  simp only [hz, Bool.false_eq_true, if_false]
  cases hi : b.st.bufferIndex id with
  | some i =>
    have hany : (b.st.buffer.any fun e => e.id == id) := by
      rw [bufferIndex] at hi
      rw [← findIdx?_isSome, hi]
      rfl
    simp only [bufferIndex] at hi
    simp [hi, bufferIndex, hany, entriesAfter_eq hi]
  | none =>
    have hany : (b.st.buffer.any fun e => e.id == id) = false := by
      rw [bufferIndex] at hi
      rw [← findIdx?_isSome, hi]
      rfl
    simp only [bufferIndex] at hi
    simp [hi, bufferIndex, hany]

lemma writeOne_accepted {domain item key attr : String}
    {refusal : Option DataAccessError} (hkey : rcbKey domain item = some (key, attr))
    (h : (writeOne cfg c conn domain item v refusal s).2.isOk) :
    ∃ b m, s.block key = some b ∧ (writeOne cfg c conn domain item v refusal s).1 =
      ({ s with model := m } : State).onBlock key (onRcbWrite c attr v conn (s.ipOf conn)) := by
  unfold writeOne at h ⊢
  rw [hkey] at h ⊢
  dsimp only at h ⊢
  rcases hb : s.block key with _ | b
  · rw [hb] at h
    cases h
  rw [hb] at h
  dsimp only at h ⊢
  split at h
  · cases h
  next hchk =>
  split at h
  · cases h
  next m ch hstore =>
    exact ⟨b, m, rfl, rfl⟩

lemma onRcbWrite_enables (c : Ctx) (ip : Option IpAddr) (hv : v.asBool) (hb : rs.buffered)
    (hsc : w.conns.lookup conn = some sc) (hn : w.st.next ≤ w.st.buffer.length) :
    ∃ events, (onRcbWrite c "RptEna" v conn ip rs w).trace = w.trace ++ .enabled conn :: events ∧
      Sends (sqNumWidth rs) 0 (resume w.st).bufOverflow (w.st.buffer.drop (resume w.st).next) events := by
  have hwrite : onRcbWrite c "RptEna" v conn ip rs w = enable c rs conn ip
      (if w.st.owner = none then take rs conn ip { w with runtime := true }
        else { w with runtime := true }) := by
    unfold onRcbWrite applyWrite
    simp [hv]
  rw [hwrite]
  split
  · have hst := take_st rs conn ip { w with runtime := true }
    have hconns : ((take rs conn ip { w with runtime := true }).conns.lookup conn).isSome := by
      rw [take_frame.conns, hsc]
      rfl
    obtain ⟨sc', hsc'⟩ := Option.isSome_iff_exists.mp hconns
    have hbuf : (take rs conn ip { w with runtime := true }).st.buffer = w.st.buffer := by rw [hst]
    obtain ⟨events, htr, hsnd⟩ := enable_sends c ip hb hsc' (by
      rw [hst]
      exact hn)
    have hres : (resume (take rs conn ip { w with runtime := true }).st).next = (resume w.st).next ∧
        (resume (take rs conn ip { w with runtime := true }).st).bufOverflow = (resume w.st).bufOverflow := by
      apply resume_congr <;> rw [hst]
    rw [Reserves.take.trace] at htr
    rw [hres.1, hres.2, hbuf] at hsnd
    exact ⟨events, htr, hsnd⟩
  · exact enable_sends c ip hb hsc hn

lemma enablesResume (hn : (s.blocks.map fun b => b.rs.key).Nodup) (hc : s.entryCounter < 2 ^ 32)
    (hkp : ∀ b ∈ s.blocks, KeptIn cfg.entrySeed s.toEngine b) {C : Block → Prop}
    (hC : ∀ b ∈ s.blocks, b.rs.buffered → C b → requested b.trace = none →
      (b.work s.toEngine).outbox.Delivered ∧ unrefused b) : EnablesResume cfg s C := by
  intro b conn domain item v refusal now h hbuf hCb
  obtain ⟨sc, hsc, hreq⟩ := h.request
  obtain ⟨b0, m, hb0, hwrite⟩ := writeOne_accepted h.key h.accepted
  have hmem0 : b0 ∈ s.blocks := mem_of_find?_eq_some hb0
  have hkey0 : b0.rs.key = b.rs.key := by simpa using find?_some hb0
  obtain rfl := inj_on_of_nodup_map hn hmem0 h.mem hkey0
  have hk := hkp b0 h.mem hbuf
  obtain ⟨before, after, hsplit⟩ := append_of_mem h.mem
  have hstep : step cfg s (.write conn domain item v refusal now) =
      ({ s with model := m } : State).onBlock b0.rs.key
        (onRcbWrite (cfg.ctx now true) "RptEna" v conn (s.ipOf conn)) := by
    rw [step, hsc]
    simp only [hreq, if_true]
    exact hwrite
  have hone := onBlock_eq (s := { s with model := m })
    (f := onRcbWrite (cfg.ctx now true) "RptEna" v conn (s.ipOf conn)) hsplit rfl hn
  obtain ⟨events, htr, hsnd⟩ := onRcbWrite_enables (w := b0.written s m) (cfg.ctx now true)
    (s.ipOf conn) h.on hbuf hsc hk.waiting.numbered.next_le
  obtain ⟨howed, hlost⟩ := resume_owed hk.tracked.resync
    fun hno => ⟨(hC b0 h.mem hbuf hCb hno).1, hk.waiting.unsent hc, (hC b0 h.mem hbuf hCb hno).2⟩
  refine ⟨b0.after (onRcbWrite (cfg.ctx now true) "RptEna" v conn (s.ipOf conn) b0.rs (b0.written s m)),
    ?_, rfl, events, (resume b0.st).bufOverflow, htr, ?_, hlost⟩
  · rw [hstep, hone]
    simp [written, work]
  · rw [← howed]
    exact hsnd

lemma Sends.length_eq {width n : ℕ} {flag : Bool} {entries : List ReportEntry} {events : List Event}
    (h : Sends width n flag entries events) : events.length = entries.length := by
  induction entries generalizing n flag events with
  | nil =>
    rw [h]
    rfl
  | cons e rest ih =>
    obtain ⟨r, accepted, later, rfl, -, -, -, hrs⟩ := h
    rw [length_cons, ih hrs, length_cons]

lemma keptIn_run (cfg : Config) {m : Model} {bufDefault : ℕ} {runtime : Bool}
    (hs : Started m bufDefault runtime s) (steps : List Step) :
    ((run cfg s steps).blocks.map fun b => b.rs.key).Nodup ∧
      ∀ b ∈ (run cfg s steps).blocks, KeptIn cfg.entrySeed (run cfg s steps).toEngine b := by
  refine run_invariant (fun s => (s.blocks.map fun b => b.rs.key).Nodup ∧
    ∀ b ∈ s.blocks, KeptIn cfg.entrySeed s.toEngine b)
    (fun s x h => ⟨keys_nodup_step h.1, keptIn_step h.1 h.2⟩) ⟨hs.keys_nodup, ?_⟩ steps
  intro b hb _
  obtain ⟨hmat, htr⟩ := hs.block hb
  obtain ⟨ip, hst⟩ := hmat.fresh
  refine ⟨?_, ⟨⟨?_, ⟨[], ?_, .nil, ?_⟩, ?_⟩, ?_⟩, ⟨?_, ?_, ?_⟩⟩
  · simp [work, hst]
  · simp [work, hst]
  · simp [work, hst]
  · intro k hk
    cases hk
  · intro r accepted hr
    simp [work, htr] at hr
  · intro _ e he
    simp [work, hst] at he
  · intro before r accepted after heq
    simp [work, htr] at heq
  · simp [work, hst, htr, sinceEnabled]
  · simp [work, hst, htr, requested]

def reconnecting (closeFirst : Bool) : List Step :=
  .connect none 0 :: writeRequest "LLN0$BR$b01$RptEna" (.boolean true) ++ [setStVal true] ++
    (if closeFirst then [.fire (.window "LD\x00LLN0$BR$b01" 0) sampleTime] else []) ++
    [.endAssociation 1 sampleTime, setStVal false, .fire (.window "LD\x00LLN0$BR$b01" 1) sampleTime,
      .connect none 0, .beginRequest 2]

def reconnected (closeFirst : Bool) : State :=
  run sampleConfig (start (sampleModel windowedBlock) 0 true) (reconnecting closeFirst)

def enabling : Step := .write 2 "LD" "LLN0$BR$b01$RptEna" (.boolean true) none sampleTime

lemma enables_reconnected {closeFirst : Bool} (hb : b ∈ (reconnected closeFirst).blocks)
    (hkey : rcbKey "LD" "LLN0$BR$b01$RptEna" = some (b.rs.key, "RptEna")) :
    Enables sampleConfig (reconnected closeFirst) b 2 "LD" "LLN0$BR$b01$RptEna" (.boolean true) none
      sampleTime := by
  refine ⟨hb, hkey, rfl, ?_, ?_⟩
  · cases closeFirst <;> decide +kernel
  · cases closeFirst <;> decide +kernel

end Iec61850.Server
