import Iec61850.Outbox
import Iec61850.ServerStart

/-! No buffered report is lost in silence if no association ends while a window is open; and the entries of a
buffer. -/
namespace Iec61850.Server
open Mms List Option Work Outbox

variable {c : Ctx} {rs : RcbState} {e : ReportEntry} {w : Work}

def toNotice : Event → Option (Notice ReportEntry)
  | .committed e => some (.stored e)
  | .overflowed e => some (.overflowed e)
  | .sent r accepted => some (.handed r.entry r.bufOvfl accepted)
  | .purged unsent => some (.dropped unsent)
  | _ => none

def outboxOf (st : RcbRuntime) (trace : List Event) : Outbox ReportEntry :=
  { buffer := st.buffer
    next := st.next
    missed := st.bufOverflow
    history := trace.filterMap toNotice }

def Work.outbox (w : Work) : Outbox ReportEntry := outboxOf w.st w.trace

/-- An enabled block's subscriber is in the table of associations. -/
def Live (w : Work) : Prop := w.st.enabled = true → ∃ conn sc, Linked w conn sc

variable {w' : Work} {sc : ServerConn} {conn : ConnId} {names : List String} {ev : Event}

lemma linked_of_frame (h : Linked w conn sc) (hc : w'.st.conn = w.st.conn) (hf : Frame names rs w w') :
    ∃ sc', Linked w' conn sc' := by
  have hs : (w'.conns.lookup conn).isSome := by
    rw [hf.conns, h.2]
    rfl
  obtain ⟨sc', hsc'⟩ := isSome_iff_exists.mp hs
  exact ⟨sc', hc.trans h.1, hsc'⟩

lemma Live.of_frame (h : Live w) (hs : SameControl w.st w'.st) (hf : Frame names rs w w') : Live w' := by
  intro he
  rw [hs.enabled] at he
  obtain ⟨conn, sc, hl⟩ := h he
  obtain ⟨sc', hl'⟩ := linked_of_frame hl hs.conn hf
  exact ⟨conn, sc', hl'⟩

lemma outbox_discardOne : (discardOne w).outbox = w.outbox.discard := by
  rw [discardOne]
  split
  · next h => simp [Work.outbox, outboxOf, Outbox.discard, h]
  next h =>
  split
  · next hn => simp [Work.outbox, outboxOf, Outbox.discard, h, hn]
  · next hn => simp [Work.outbox, outboxOf, Outbox.discard, h, hn, note, toNotice]

lemma outbox_keep (c : Ctx) (rs : RcbState) (e : ReportEntry) (w : Work) :
    ∃ e', (keep c rs e w).outbox = w.outbox.store e' ∧ e'.members = e.members := by
  refine ⟨{ e with id := (nextEntryId c w).1 }, ?_, rfl⟩
  simp [Work.outbox, outboxOf, Outbox.store, keep, nextEntryId, note, toNotice]

lemma outbox_advance_transmit (hl : Linked w conn sc) (hb : rs.buffered) (he : w.st.buffer[w.st.next]? = some e) :
    ∃ taken, (advance (transmit c rs e w)).outbox = w.outbox.hand taken := by
  have ht : transmit c rs e w = transmitTo c rs e conn sc w := by
    simp [transmit, hl.1, hl.2]
  refine ⟨?_, ?_⟩
  · exact (sc.sendAll (reportPdus c (setSqNum rs (w.st.sqNum + 1) w).model rs
      (reportOf c (setSqNum rs (w.st.sqNum + 1) w).model rs w.st.sqNum w.st.bufOverflow e)
      sc.maxPdu)).2
  rw [ht]
  have hget : w.outbox.buffer[w.outbox.next]? = some e := he
  rw [hand, hget]
  simp [outbox, outboxOf, transmitTo, advance, setSqNum, hb, toNotice, reportOf]

lemma outbox_note (hev : toNotice ev = none) : (note ev w).outbox = w.outbox := by
  simp [outbox, outboxOf, note, hev]

variable {Q : Outbox ReportEntry → Prop}

/-- A block works properly: its subscriber is there, and if it is buffered its outbox is as it should
be. -/
structure Works (Q : Outbox ReportEntry → Prop) (rs : RcbState) (w : Work) : Prop where
  live : Live w
  outbox : rs.buffered = true → Q w.outbox

lemma outbox_kept (hQ : Outbox.Invariant Q) (h : Q w.outbox) : Q (kept c rs e w).outbox := by
  apply kept_induction (Q := fun w => Q w.outbox)
  · obtain ⟨e', he, -⟩ := outbox_keep c rs (stamped c e) w
    rw [he]
    exact hQ.store _ e' h
  intro w h
  rw [outbox_discardOne]
  exact hQ.discard _ h

lemma works_rule (hQ : Outbox.Invariant Q) (c : Ctx) (rs : RcbState) : ReportRule c rs (Works Q rs) where
  window _ _ _ h := ⟨h.live, h.outbox⟩
  task _ _ _ h := ⟨h.live, h.outbox⟩
  captured w e h := by
    refine ⟨h.live, ?_⟩
    rw [outbox_note rfl]
    exact h.outbox
  committed w e hb h := by
    refine ⟨h.live, ?_⟩
    intro hb'
    rw [hb] at hb'
    cases hb'
  sent w e hb _ h := by
    refine ⟨h.live.of_frame transmit_control.toSameControl transmit_frame, ?_⟩
    intro hb'
    rw [hb] at hb'
    cases hb'
  kept w e _ h := ⟨h.live.of_frame kept_control.toSameControl kept_frame, fun hb => outbox_kept hQ (h.outbox hb)⟩
  handed w e hb he hget h := by
    obtain ⟨conn, sc, hl⟩ := h.live he
    refine ⟨?_, ?_⟩
    · exact h.live.of_frame (transmit_control.trans advance_control).toSameControl
        (transmit_frame.trans advance_frame)
    intro _
    obtain ⟨taken, ho⟩ := outbox_advance_transmit hl hb hget
    rw [ho]
    exact hQ.hand _ taken (h.outbox hb)

variable {ip : Option IpAddr} (hQ : Outbox.Invariant Q)

lemma Reserves.outbox (h : Reserves rs w w') : w'.outbox = w.outbox := by
  obtain ⟨_, _, _, _, _, _, _, -, rfl⟩ := h
  rfl

/-- A resync point, when it is still in the buffer, has been sent already. -/
def ResumesBack (st : RcbRuntime) : Prop :=
  ∀ id ∈ st.resyncId, isZeroEntryId id = false → ∀ i ∈ st.bufferIndex id, i < st.next
deriving Decidable

include hQ in
lemma outbox_resume (hr : ResumesBack w.st) (h : Q w.outbox) : Q ({ w with st := resume w.st } : Work).outbox := by
  have hseek {k : ℕ} (hk : k ≤ w.st.next) : Q (w.outbox.seek k) := hQ.seek w.outbox k hk h
  unfold resume
  split
  · exact h
  next id hid =>
  dsimp only
  split
  · exact hseek (Nat.zero_le _)
  next hz =>
  split
  next i hi =>
    have hlt : i < w.st.next := hr id hid (by simpa using hz) i hi
    exact hseek hlt
  · exact hQ.restart _ h

lemma prepared_outbox : (prepared rs conn ip w).outbox = w.outbox := by
  obtain ⟨_, _, _, _, hst⟩ := prepared_st rs conn ip w
  rw [outbox, hst, prepared_trace]
  simp [outboxOf, outbox, toNotice]

lemma Works.of_same (h : Works Q rs w)
    (ho : w'.outbox = w.outbox) (he : w'.st.enabled = w.st.enabled) (hc : w'.st.conn = w.st.conn)
    (hf : Frame servedAttrs rs w w') : Works Q rs w' := by
  refine ⟨?_, ?_⟩
  · intro h'
    rw [he] at h'
    obtain ⟨conn, sc, hl⟩ := h.live h'
    obtain ⟨sc', hl'⟩ := linked_of_frame hl hc hf
    exact ⟨conn, sc', hl'⟩
  intro hb
  rw [ho]
  exact h.outbox hb

include hQ in
lemma works_deliver (hl : ∃ sc, Linked w conn sc) (he : w.st.enabled)
    (hr : rs.buffered → ResumesBack w.st) (h : Works Q rs w) : Works Q rs (deliver c rs w) := by
  rw [deliver]
  split
  next hb =>
    -- The cursor goes back first, then everything behind it is handed over.
    refine (works_rule hQ c rs).transmitFrom hb _ _ ?_ ⟨?_, ?_⟩
    · exact (resume_control w.st).enabled.trans he
    · intro _
      obtain ⟨sc, hl⟩ := hl
      exact ⟨conn, sc, (resume_control w.st).conn.trans hl.1, hl.2⟩
    · intro _
      exact outbox_resume hQ (hr hb) (h.outbox hb)
  · exact h

lemma Works.reserves (h : Works Q rs w) (hr : Reserves rs w w') : Works Q rs w' := by
  have hfr := hr.frame.reserved
  obtain ⟨_, _, _, _, _, _, _, -, rfl⟩ := hr
  exact h.of_same rfl rfl rfl hfr

include hQ in
lemma works_enable (hsc : w.conns.lookup conn = some sc)
    (hr : rs.buffered → ResumesBack w.st) (h : Works Q rs w) : Works Q rs (enable c rs conn ip w) := by
  obtain ⟨sc', hl⟩ := prepared_linked rs ip hsc
  obtain ⟨_, _, _, _, hst⟩ := prepared_st rs conn ip w
  have hp : Works Q rs (prepared rs conn ip w) := by
    refine ⟨fun _ => ⟨conn, sc', hl⟩, ?_⟩
    rw [prepared_outbox]
    exact h.outbox
  have hd : Works Q rs (deliver c rs (prepared rs conn ip w)) := by
    apply works_deliver hQ ⟨sc', hl⟩ _ _ hp
    · rw [hst]
    · rw [hst]
      exact hr
  exact hd.reserves .startIntegrity

lemma works_unsubscribe (h : rs.buffered → Q w.outbox) : Works Q rs (unsubscribe w) := by
  refine ⟨?_, h⟩
  intro he
  simp [unsubscribe, RcbRuntime.stopIntegrity] at he

lemma works_disable (h : rs.buffered → Q (flushPending c rs w).outbox) : Works Q rs (disable c rs w) := by
  have hu := works_unsubscribe h
  unfold disable
  split
  · exact hu.reserves .release
  · exact hu

lemma works_disableConnBlock (hlv : w.st.conn ≠ some conn → Live w)
    (hwin : rs.buffered → w.st.conn = some conn → w.st.pending = none)
    (houtbox : rs.buffered → Q w.outbox) : Works Q rs (disableConnBlock c conn rs w) := by
  refine disableConnBlock_rule (fun hc => ⟨hlv hc, houtbox⟩) ?_ fun _ h => h.reserves .release
  intro hc
  apply works_disable
  intro hb
  have hf : flushPending c rs w = w := by simp [flushPending, hwin hb hc]
  rw [hf]
  exact houtbox hb

lemma works_purgeBlock (hc : rs.buffered → Q w.outbox.clear) (h : Works Q rs w) : Works Q rs (purgeBlock w) := by
  have ho : (purgeBlock w).outbox = w.outbox.clear := by
    simp [purgeBlock, note, outbox, outboxOf, clear, RcbRuntime.purge, toNotice]
  refine ⟨h.live, ?_⟩
  rw [ho]
  exact hc

def enables (attr : String) (v : Value) : Bool := attr == "RptEna" && v.asBool

include hQ in
lemma works_onRcbWrite {attr : String} {v : Value} (hsc : w.conns.lookup conn = some sc)
    (hr : rs.buffered → enables attr v → ResumesBack w.st)
    (hp : rs.buffered → purges attr v → Q w.outbox.clear) (h : Works Q rs w) :
    Works Q rs (onRcbWrite c attr v conn ip rs w) := by
  have hrule : WriteRule c attr v conn ip rs (fun w => Works Q rs w ∧
      (w.conns.lookup conn).isSome ∧
      (rs.buffered → enables attr v → ResumesBack w.st) ∧
      (rs.buffered → purges attr v → Q w.outbox.clear)) (Works Q rs) :=
    { task := fun h => ⟨h.1.of_same rfl rfl rfl (.of_eq rfl rfl rfl), h.2⟩
      taken := by
        intro w h _
        rw [take_frame.conns, Reserves.take.outbox, take_st]
        exact ⟨h.1.reserves .take, h.2⟩
      reserved := fun h _ => h.1.reserves .take
      released := fun h _ _ => h.1.reserves .release
      idle := fun h _ _ => h.1
      stopped := fun h => h.of_same rfl rfl rfl (.of_eq rfl rfl rfl)
      enabled := by
        intro w h heq hv
        obtain ⟨sc, hsc⟩ := isSome_iff_exists.mp h.2.1
        exact works_enable hQ hsc (fun hb => h.2.2.1 hb (by simp [enables, heq, hv])) h.1
      disabled := fun h _ => works_disable ((works_rule hQ c rs).events.flushPending h.1).outbox
      reported := fun h => (works_rule hQ c rs).events.reportAll h
      purged := fun h hp => works_purgeBlock (fun hb => h.2.2.2 hb hp) h.1
      answered := fun h ha =>
        h.of_same rfl rfl rfl (setAttr_frame (by rcases ha with rfl | rfl <;> decide) _)
      resynced := fun h => h.of_same (outbox_note rfl) rfl rfl (.of_eq rfl rfl rfl)
      revised := fun h _ => ⟨h.1.of_same rfl rfl rfl (setAttr_frame (by decide) _), h.2⟩ }
  exact hrule.onRcbWrite ⟨h, isSome_iff_exists.mpr ⟨sc, hsc⟩, hr, hp⟩

variable {cfg : Config} {s : State} {x : Step}

/-- A block of the server works properly. -/
def WorksIn (Q : Outbox ReportEntry → Prop) (g : Engine) (b : Block) : Prop := Works Q b.rs (b.work g)

def Tends (Q : Outbox ReportEntry → Prop) (s : State) : Step → Prop
  | .endAssociation conn _ => ∀ b ∈ s.blocks,
    b.rs.buffered = true → b.st.conn = some conn → b.st.pending = none
  | .write _ domain item v _ _ => ∀ p ∈ rcbKey domain item, ∀ b ∈ s.blocks,
    b.rs.key = p.1 → b.rs.buffered = true →
      (enables p.2 v = true → ResumesBack b.st) ∧
      (purges p.2 v = true → Q (outboxOf b.st b.trace).clear)
  | _ => True

variable {g g' : Engine} {b : Block}

lemma live_of_conns (hl : Live (b.work g))
    (hc : ∀ conn, (g.conns.lookup conn).isSome → (g'.conns.lookup conn).isSome) : Live (b.work g') := by
  intro he
  obtain ⟨conn, sc, hl⟩ := hl he
  obtain ⟨sc', hsc'⟩ := isSome_iff_exists.mp (hc conn (isSome_of_eq_some hl.2))
  exact ⟨conn, sc', hl.1, hsc'⟩

lemma WorksIn.of_conns (h : WorksIn Q g b)
    (hc : ∀ conn, (g.conns.lookup conn).isSome → (g'.conns.lookup conn).isSome) :
    WorksIn Q g' b := ⟨live_of_conns h.live hc, h.outbox⟩

lemma worksIn_undisturbed : Undisturbed anyTwo (WorksIn Q) := by
  refine ⟨?_, ?_⟩
  · intro g g' b ha h
    exact h.of_conns ha.conns
  intro names rs w w' b hf _ h
  apply h.of_conns
  intro conn hc
  rw [hf.conns]
  exact hc

include hQ in
lemma worksIn_rule (cfg : Config) : BlockRule anyTwo anyChange cfg (WorksIn Q) where
  undisturbed := worksIn_undisturbed
  beside _ _ _ _ h := h.of_conns fun _ hc => hc
  update _ _ _ _ _ h := (works_rule hQ _ _).events.onUpdateBlock h
  window _ _ _ _ h := (works_rule hQ _ _).events.windowTask h
  reservation _ _ _ h := h.reserves .reservationTask
  integrity _ _ _ _ h := (works_rule hQ _ _).events.integrityTask h

lemma worksIn_endAssociation {now : SystemTime}
    (hm : Tends Q s (.endAssociation conn now)) (h : ∀ b ∈ s.blocks, WorksIn Q s.toEngine b) :
    let s' := ({ s with conns := s.conns.erase conn, changes := s.changes.erase conn } : State).onBlocks
      (disableConnBlock (cfg.ctx now true) conn)
    ∀ b ∈ s'.blocks, WorksIn Q s'.toEngine b := by
  -- Before its turn a block of the association has no subscriber in the table any more.
  have hpre : Undisturbed anyTwo fun g b =>
      (b.st.conn ≠ some conn → Live (b.work g)) ∧
      (b.rs.buffered → b.st.conn = some conn → b.st.pending = none) ∧
      (b.rs.buffered → Q (outboxOf b.st b.trace)) := by
    refine ⟨?_, ?_⟩
    · intro g g' b ha hp
      exact ⟨fun hne => live_of_conns (hp.1 hne) ha.conns, hp.2⟩
    intro names rs w w' b hf _ hp
    refine ⟨fun hne => live_of_conns (hp.1 hne) ?_, hp.2⟩
    intro conn hc
    rw [hf.conns]
    exact hc
  refine onBlocks_forall hpre worksIn_undisturbed (fun _ _ => disableConnBlock_frame) ?_ (anyTwo_pairwise _) ?_
  · rintro b g ⟨hl, hw, ho⟩
    exact works_disableConnBlock hl hw ho
  intro b hb
  refine ⟨?_, hm b hb, (h b hb).outbox⟩
  intro hne he
  obtain ⟨conn', sc, hl⟩ := (h b hb).live he
  have hcc : conn' ≠ conn := by
    rintro rfl
    exact hne hl.1
  exact ⟨conn', sc, hl.1, (AList.lookup_erase_ne hcc).trans hl.2⟩

include hQ in
lemma worksIn_step (hn : (s.blocks.map fun b => b.rs.key).Nodup) (hm : Tends Q s x)
    (h : ∀ b ∈ s.blocks, WorksIn Q s.toEngine b) :
    ∀ b ∈ (step cfg s x).blocks, WorksIn Q (step cfg s x).toEngine b := by
  refine step_forall (worksIn_rule hQ cfg) (anyTwo_pairwise _) hn (fun _ _ _ _ => trivial) ?_ ?_ h
  · intro b attr v conn now m hw
    refine ⟨fun _ _ _ => trivial, ?_⟩
    obtain ⟨domain, item, refusal, ch, rfl, hkey, -⟩ := hw.stored
    have htends := hm _ hkey b hw.mem rfl
    obtain ⟨sc, hsc⟩ := isSome_iff_exists.mp hw.known
    have hworks : Works Q b.rs (b.written s m) := (h b hw.mem).of_conns fun _ hc => hc
    exact works_onRcbWrite hQ hsc (fun hb => (htends hb).1) (fun hb => (htends hb).2) hworks
  · intro conn now sc hx _
    subst hx
    exact worksIn_endAssociation hm h

/-- The next report that an association takes carries a true `BufOvfl`; `flag` stands for those to come. -/
def OverflowTold (flag : Bool) : List Event → Prop
  | [] => flag = true
  | .sent r true :: _ => r.tells = true
  | _ :: rest => OverflowTold flag rest

/-- Every report taken was sent with `BufOvfl` among the block's `OptFlds`. -/
def asksOverflow (trace : List Event) : Bool :=
  trace.all fun
    | .sent r true => OptFlds.has r.opt OptFlds.bufOvfl
    | _ => true

/-- The subscriber's association took a report of the entry. -/
def Accepted (b : Block) (e : ReportEntry) : Prop := ∃ r : Report, r.entry = e ∧ .sent r true ∈ b.trace

def Misses (e : ReportEntry) : Event → Prop
  | .overflowed e' => e' = e
  | .sent r accepted => r.entry = e ∧ accepted = false
  | _ => False

/-- The entry was missed, and the next report after that tells of an overflow. -/
def MissedTold (b : Block) (e : ReportEntry) : Prop :=
  ∃ before ev after, b.trace = before ++ ev :: after ∧ Misses e ev ∧ OverflowTold b.st.bufOverflow after

/-- An entry before the cursor was taken, or its loss is told. Any other waits behind the cursor, was taken, is
told to be lost, or was purged by a client while it waited. -/
structure NoSilentLoss (b : Block) : Prop where
  cursor : b.st.next ≤ b.st.buffer.length
  reached : ∀ e ∈ b.st.buffer.take b.st.next, Accepted b e ∨ MissedTold b e
  committed : ∀ e, .committed e ∈ b.trace →
    e ∈ b.st.buffer.drop b.st.next ∨ Accepted b e ∨ MissedTold b e ∨ ∃ unsent, .purged unsent ∈ b.trace ∧ e ∈ unsent

lemma not_noSilentLoss (hn : 0 < b.st.next) (hb : b.st.buffer ≠ [])
    (ht : ∀ ev ∈ b.trace, ∀ e, ¬ Misses e ev ∧ ∀ r, ev ≠ .sent r true) : ¬ NoSilentLoss b := by
  intro h
  obtain ⟨e, rest, he⟩ := exists_cons_of_ne_nil hb
  have hmem : e ∈ b.st.buffer.take b.st.next := by
    rw [he, ← Nat.succ_pred_eq_of_pos hn, take_succ_cons]
    exact mem_cons_self
  rcases h.reached e hmem with ⟨r, -, hr⟩ | ⟨before, ev, after, heq, hm, -⟩
  · exact (ht _ hr e).2 r rfl
  · have hev : ev ∈ b.trace := by simp [heq]
    exact (ht ev hev e).1 hm

lemma overflowTold_of_told {flag : Bool} {l : List Event} (ha : asksOverflow l)
    (h : Notice.Told flag (l.filterMap toNotice)) : OverflowTold flag l := by
  induction l with
  | nil => exact h
  | cons ev rest ih =>
    obtain ⟨hev, hrs⟩ := (Bool.and_eq_true _ _).mp ha
    cases ev with
    | sent r accepted =>
      cases accepted with
      | true => exact (Bool.and_eq_true _ _).mpr ⟨hev, h⟩
      | false => exact ih hrs h
    | _ => exact ih hrs h

section
variable {b : Block} (h : (outboxOf b.st b.trace).Sound) (hasks : asksOverflow b.trace)
include h hasks

lemma missedTold_of_sound (hev : ev ∈ b.trace) (hm : Misses e ev) : MissedTold b e := by
  obtain ⟨before, after, heq⟩ := append_of_mem hev
  refine ⟨before, ev, after, heq, hm, ?_⟩
  have haft : asksOverflow after := by
    rw [heq, asksOverflow, all_append, all_cons] at hasks
    exact (Bool.and_eq_true _ _).mp ((Bool.and_eq_true _ _).mp hasks).2 |>.2
  apply overflowTold_of_told haft
  have hsplit (n : Notice ReportEntry) (hn : toNotice ev = some n) :
      (outboxOf b.st b.trace).history = before.filterMap toNotice ++ n :: after.filterMap toNotice := by
    simp [outboxOf, heq, hn]
  cases ev with
  | overflowed e' => exact h.announced _ _ _ (hsplit _ rfl) rfl
  | sent r accepted =>
    obtain ⟨-, rfl⟩ := hm
    exact h.announced _ _ _ (hsplit _ rfl) rfl
  | _ => cases hm

lemma accepted_or_told (hh : (outboxOf b.st b.trace).Handed e) : Accepted b e ∨ MissedTold b e := by
  obtain ⟨told, taken, hm⟩ := hh
  obtain ⟨ev, hev, hn⟩ := mem_filterMap.mp hm
  cases ev with
  | sent r accepted =>
    obtain ⟨rfl, -, rfl⟩ : r.entry = e ∧ r.bufOvfl = told ∧ accepted = taken := by
      simpa [toNotice] using hn
    cases accepted with
    | true => exact .inl ⟨r, rfl, hev⟩
    | false => exact .inr (missedTold_of_sound h hasks hev ⟨rfl, rfl⟩)
  | _ => simp [toNotice] at hn

lemma noSilentLoss_of_sound : NoSilentLoss b := by
  refine ⟨h.next_le, ?_, ?_⟩
  · intro e he
    exact accepted_or_told h hasks (h.reached e he)
  intro e he
  have hstd : Notice.stored e ∈ (outboxOf b.st b.trace).history := mem_filterMap.mpr ⟨_, he, rfl⟩
  rcases h.accounted e hstd with hw | hh | ho | ⟨as, hd, ha⟩
  · exact .inl hw
  · rcases accepted_or_told h hasks hh with hacc | htold
    · exact .inr (.inl hacc)
    · exact .inr (.inr (.inl htold))
  · obtain ⟨ev, hev, hn⟩ := mem_filterMap.mp ho
    cases ev with
    | overflowed e' =>
      have he : e' = e := by simpa [toNotice] using hn
      exact .inr (.inr (.inl (missedTold_of_sound h hasks hev he)))
    | _ => simp [toNotice] at hn
  obtain ⟨ev, hev, hn⟩ := mem_filterMap.mp hd
  cases ev with
  | purged unsent =>
    have he : unsent = as := by simpa [toNotice] using hn
    subst he
    exact .inr (.inr (.inr ⟨unsent, hev, ha⟩))
  | _ => simp [toNotice] at hn

end

/-- What a request holds back for its end still fits into the queue, which is drained. -/
def FitsQueue (sc : ServerConn) (answered : Bool) : Prop :=
  sc.after = [] ∨ answered = true ∧ sc.closed = false ∧ sc.queue.length + sc.after.length ≤ unconfirmedQueueDepth
deriving Decidable

/-- The association of a buffered block does not end in its window, an enable does not skip what is not sent, a
purge leaves no overflow untold, and what a request holds back fits into the queue. -/
def SpeaksUp (s : State) : Step → Prop
  | .endAssociation conn _ => ∀ b ∈ s.blocks,
    b.rs.buffered = true → b.st.conn = some conn → b.st.pending = none
  | .write _ domain item v _ _ => ∀ p ∈ rcbKey domain item, ∀ b ∈ s.blocks,
    b.rs.key = p.1 → b.rs.buffered = true →
      (enables p.2 v = true → ResumesBack b.st) ∧ (purges p.2 v = true → b.st.bufOverflow = false)
  | .endRequest conn answered => ∀ sc ∈ s.conns.lookup conn, FitsQueue sc answered
  | _ => True

instance (s : State) (x : Step) : Decidable (SpeaksUp s x) := by
  apply @Step.casesOn (fun x => Decidable (SpeaksUp s x)) x <;> intros <;> dsimp only [SpeaksUp] <;> infer_instance

lemma tends_of_speaksUp (hm : SpeaksUp s x) (h : ∀ b ∈ s.blocks, WorksIn Outbox.Sound s.toEngine b) :
    Tends Outbox.Sound s x := by
  cases x with
  | endAssociation conn now => exact hm
  | write conn domain item v refusal now =>
    intro p hp b hb hk hbuf
    obtain ⟨hresumes, hflag⟩ := hm p hp b hb hk hbuf
    exact ⟨hresumes, fun hpurge => ((h b hb).outbox hbuf).clear (hflag hpurge)⟩
  | _ => trivial

lemma queueHeld_dropped (conn : ConnId) (held : List (List UInt8)) (s : State) (sc : ServerConn)
    (hcl : sc.closed = false) (hrm : sc.queue.length + held.length ≤ unconfirmedQueueDepth) :
    (queueHeld conn held s sc).1.dropped = s.dropped := by
  induction held generalizing s sc with
  | nil => rfl
  | cons pdu rest ih =>
    rw [length_cons] at hrm
    have hlt : sc.queue.length < unconfirmedQueueDepth := by omega
    have hsend : sc.trySend pdu = ({ sc with queue := sc.queue ++ [pdu] }, true) := by
      simp [ServerConn.trySend, hcl, hlt]
    rw [queueHeld, hsend]
    apply ih
    · exact hcl
    · simp only [length_append, length_cons, length_nil]
      omega

lemma dropped_step (hm : SpeaksUp s x) : (step cfg s x).dropped = s.dropped := by
  refine step_rule ?_ (fun _ => rfl) (fun _ _ _ => rfl) ?_
  · intro hq
    cases x with
    | endRequest conn answered =>
      rw [step]
      split
      · rfl
      next sc hsc =>
      unfold endRequest
      rcases hm sc hsc with hno | ⟨rfl, hcl, hrm⟩
      · rw [hno]
        split
        · rfl
        · simp
      · exact queueHeld_dropped _ _ _ _ hcl hrm
    | connect | journal => rfl
    | beginRequest | drain | stall =>
      rw [step]
      split <;> rfl
    | _ => cases hq
  · intro st f hd
    cases hd <;> rfl

/-- In every run whose steps all speak up, no buffered block that was asked for `BufOvfl` has lost anything in
silence, and no report that an association took was left out of its queue. -/
theorem no_silent_loss {cfg : Config} {m : Model} {bufDefault : ℕ} {runtime : Bool} {s : State}
    {steps : List Step} (hs : Started m bufDefault runtime s) (hm : Admitted cfg SpeaksUp s steps) :
    (∀ b ∈ (run cfg s steps).blocks, b.rs.buffered = true → asksOverflow b.trace = true → NoSilentLoss b) ∧
      (run cfg s steps).dropped = [] := by
  have hinv : ((run cfg s steps).blocks.map fun b => b.rs.key).Nodup ∧
      (∀ b ∈ (run cfg s steps).blocks, WorksIn Outbox.Sound (run cfg s steps).toEngine b) ∧
      (run cfg s steps).dropped = [] := by
    refine run_induction (fun s => (s.blocks.map fun b => b.rs.key).Nodup ∧
      (∀ b ∈ s.blocks, WorksIn Outbox.Sound s.toEngine b) ∧ s.dropped = [])
      ?_ ⟨hs.keys_nodup, ?_, ?_⟩ hm
    · intro s x h hx
      exact ⟨keys_nodup_step h.1,
        worksIn_step Outbox.Sound.invariant h.1 (tends_of_speaksUp hx h.2.1) h.2.1,
        (dropped_step hx).trans h.2.2⟩
    · intro b hb
      obtain ⟨hmat, htr⟩ := hs.block hb
      obtain ⟨ip, hst⟩ := hmat.fresh
      refine ⟨?_, ?_⟩
      · intro he
        simp [Block.work, hst] at he
      intro _
      simp only [Block.work, outbox, outboxOf, hst, htr]
      exact Outbox.Sound.empty
    · obtain ⟨blocks, -, rfl⟩ := hs
      rfl
  refine ⟨?_, hinv.2.2⟩
  intro b hb hbuf hasks
  exact noSilentLoss_of_sound ((hinv.2.1 b hb).outbox hbuf) hasks

def collecting : List Step :=
  .connect none 0 :: writeRequest "LLN0$BR$b01$RptEna" (.boolean true) ++ [setStVal true]

def windowClosed : State :=
  run sampleConfig (start (sampleModel windowedBlock) 0 true)
    (collecting ++ [.fire (.window "LD\x00LLN0$BR$b01" 0) sampleTime, .endAssociation 1 sampleTime])

/-- The window closes in time, then the association ends. -/
theorem no_silent_loss_window_closed :
    (∃ b ∈ windowClosed.blocks, b.st.buffer.length = 1 ∧ NoSilentLoss b) ∧ windowClosed.dropped = [] := by
  have h : (∀ b ∈ windowClosed.blocks, _) ∧ windowClosed.dropped = [] :=
    no_silent_loss (started_start (sampleModel windowedBlock) 0 true) (by decide +kernel)
  have hrun : ∃ b ∈ windowClosed.blocks,
      b.rs.buffered = true ∧ asksOverflow b.trace = true ∧ b.st.buffer.length = 1 := by decide +kernel
  obtain ⟨b, hb, hbuf, hasks, hlen⟩ := hrun
  exact ⟨⟨b, hb, hlen, h.1 b hb hbuf hasks⟩, h.2⟩

def neverOffered (trace : List Event) : Bool :=
  trace.all fun
    | .sent .. | .overflowed _ => false
    | _ => true

lemma not_misses_of_neverOffered {trace : List Event} (h : neverOffered trace) :
    ∀ ev ∈ trace, ∀ e, ¬ Misses e ev ∧ ∀ r, ev ≠ .sent r true := by
  intro ev hev e
  have hno := all_eq_true.mp h ev hev
  cases ev <;> simp_all [Misses]

/-- The association ends while the window is open: the entry lies before the cursor, and nobody was
offered it. -/
theorem window_lost_at_association_end : ∃ b ∈ (run sampleConfig (start (sampleModel windowedBlock) 0 true)
        (collecting ++ [.endAssociation 1 sampleTime])).blocks, b.rs.buffered = true ∧ ¬ NoSilentLoss b := by
  have hrun : ∃ b ∈ (run sampleConfig (start (sampleModel windowedBlock) 0 true)
        (collecting ++ [.endAssociation 1 sampleTime])).blocks,
      b.rs.buffered = true ∧ 0 < b.st.next ∧ b.st.buffer.isEmpty = false ∧ neverOffered b.trace = true := by
    decide +kernel
  obtain ⟨b, hb, hbuf, hn, hne, ht⟩ := hrun
  refine ⟨b, hb, hbuf, not_noSilentLoss hn ?_ (not_misses_of_neverOffered ht)⟩
  simpa using hne

def entryNo (seed : UInt32) (k : ℕ) : List UInt8 := makeEntryId (seed.toNat * 2 ^ 32 + k % 2 ^ 32)

lemma entryNo_injective {seed : UInt32} {k k' : ℕ} (hk : k < 2 ^ 32) (hk' : k' < 2 ^ 32)
    (h : entryNo seed k = entryNo seed k') : k = k' := by
  have hseed : seed.toNat < 2 ^ 32 := seed.toNat_lt
  have hrd {k : ℕ} (hk : k < 2 ^ 32) :
      Asn1.ofOctets (entryNo seed k) = seed.toNat * 2 ^ 32 + k := by
    have hlt : seed.toNat * 2 ^ 32 + k % 2 ^ 32 < 256 ^ 8 := by omega
    rw [entryNo, makeEntryId, Asn1.ofOctets_beOctets_of_lt hlt, Nat.mod_eq_of_lt hk]
  have heq := congrArg Asn1.ofOctets h
  rw [hrd hk, hrd hk'] at heq
  omega

def sinceEnabled (trace : List Event) : ℕ :=
  trace.foldl (fun n ev => match ev with
    | .enabled _ => 0
    | .sent .. => n + 1
    | _ => n) 0

def requested (trace : List Event) : Option (List UInt8) :=
  trace.foldl (fun q ev => match ev with
    | .resync id => some id
    | .enabled _ | .purged _ => none
    | _ => q) none

/-- A report carries the number of reports since the block was enabled, at the width of `SqNum`. -/
def Counted (rs : RcbState) (trace : List Event) : Prop :=
  ∀ before r accepted after, trace = before ++ .sent r accepted :: after →
    r.seq = sinceEnabled before % 2 ^ sqNumWidth rs

def neutral : Event → Bool
  | .captured _ | .committed _ | .overflowed _ => true
  | _ => false

variable {rs : RcbState} {trace : List Event} {ev : Event}

lemma sinceEnabled_neutral (h : neutral ev) : sinceEnabled (trace ++ [ev]) = sinceEnabled trace := by
  cases ev <;> simp_all [sinceEnabled, neutral]

lemma requested_neutral (h : neutral ev) : requested (trace ++ [ev]) = requested trace := by
  cases ev <;> simp_all [requested, neutral]

lemma Counted.append (h : Counted rs trace)
    (hev : ∀ r accepted, ev = .sent r accepted → r.seq = sinceEnabled trace % 2 ^ sqNumWidth rs) :
    Counted rs (trace ++ [ev]) := by
  intro before r accepted after heq
  rcases History.split_append_one heq with ⟨after', -, hl⟩ | ⟨-, rfl, rfl⟩
  · exact h before r accepted after' hl
  · exact hev r accepted rfl

/-- By the trace, the reports are counted from each enable, and the resync point is the one asked for. -/
structure Tracked (rs : RcbState) (w : Work) : Prop where
  counted : Counted rs w.trace
  sqNum : w.st.sqNum = sinceEnabled w.trace % 2 ^ sqNumWidth rs
  resync : w.st.resyncId = requested w.trace

variable {c : Ctx} {w w' : Work} {e : ReportEntry}

section
variable (h : Tracked rs w)
include h

lemma Tracked.of_eq (ht : w'.trace = w.trace) (hn : w'.st.sqNum = w.st.sqNum)
    (hr : w'.st.resyncId = w.st.resyncId) : Tracked rs w' := by
  refine ⟨?_, ?_, ?_⟩
  · rw [ht]
    exact h.counted
  · rw [ht, hn]
    exact h.sqNum
  · rw [ht, hr]
    exact h.resync

lemma Tracked.note (hev : neutral ev) : Tracked rs (note ev w) := by
  refine ⟨?_, ?_, ?_⟩
  · apply h.counted.append
    intro r accepted heq
    rw [heq] at hev
    cases hev
  · rw [Server.note, sinceEnabled_neutral hev]
    exact h.sqNum
  · rw [Server.note, requested_neutral hev]
    exact h.resync

lemma tracked_transmit : Tracked rs (transmit c rs e w) := by
  rcases transmit_cases c rs e w with ⟨heq, -⟩ | ⟨conn, sc, -, heq⟩
  · rw [heq]
    exact h
  rw [heq]
  refine ⟨?_, ?_, ?_⟩
  · apply h.counted.append
    intro r accepted hev
    obtain ⟨rfl, -⟩ := Event.sent.inj hev
    exact h.sqNum
  · have hnx : (transmitTo c rs e conn sc w).st.sqNum = (w.st.sqNum + 1) % 2 ^ sqNumWidth rs := rfl
    rw [hnx, h.sqNum, Nat.mod_add_mod]
    simp [transmitTo, sinceEnabled, setSqNum]
  · have hreq : (transmitTo c rs e conn sc w).st.resyncId = w.st.resyncId := rfl
    rw [hreq, h.resync]
    simp [transmitTo, requested, setSqNum]

lemma tracked_discardOne : Tracked rs (discardOne w) := by
  rw [discardOne]
  split
  · exact h
  split
  · exact h.of_eq rfl rfl rfl
  · refine Tracked.note ?_ rfl
    exact h.of_eq rfl rfl rfl

lemma tracked_keep : Tracked rs (keep c rs e w) := by
  refine Tracked.note ?_ rfl
  exact h.of_eq rfl rfl rfl

end

lemma tracked_rule (c : Ctx) (rs : RcbState) : ReportRule c rs (Tracked rs) where
  window _ _ _ h := h.of_eq rfl rfl rfl
  task _ _ _ h := h.of_eq rfl rfl rfl
  captured _ _ h := h.note rfl
  committed _ _ _ h := h.note rfl
  sent _ _ _ _ h := tracked_transmit h
  kept _ _ _ h := kept_induction (tracked_keep h) fun _ => tracked_discardOne
  handed _ _ _ _ _ h := (tracked_transmit h).of_eq rfl rfl rfl

/-- The entries of a buffer, and those sent, are in the order in which their identifiers were issued. -/
structure Numbered (seed : UInt32) (w : Work) : Prop where
  next_le : w.st.next ≤ w.st.buffer.length
  ids : ∃ ks : List ℕ, w.st.buffer.map ReportEntry.id = ks.map (entryNo seed) ∧
    ks.Pairwise (· < ·) ∧ ∀ k ∈ ks, k ≤ w.entryCounter
  sent : ∀ r accepted, .sent r accepted ∈ w.trace → ∃ k ≤ w.entryCounter, r.entry.id = entryNo seed k

/-- No entry behind the cursor was ever sent. -/
def Unsent (w : Work) : Prop :=
  ∀ e ∈ w.st.buffer.drop w.st.next, ∀ r accepted, .sent r accepted ∈ w.trace → r.entry.id ≠ e.id

variable {seed : UInt32}

lemma Numbered.of_eq (h : Numbered seed w) (hb : w'.st.buffer = w.st.buffer)
    (hn : w'.st.next ≤ w'.st.buffer.length) (hc : w.entryCounter ≤ w'.entryCounter)
    (ht : ∀ r accepted, .sent r accepted ∈ w'.trace → .sent r accepted ∈ w.trace) : Numbered seed w' := by
  obtain ⟨ks, hids, hks, hle⟩ := h.ids
  refine ⟨hn, ⟨ks, ?_, hks, ?_⟩, ?_⟩
  · rw [hb]
    exact hids
  · intro k hk
    exact Nat.le_trans (hle k hk) hc
  intro r accepted hr
  obtain ⟨k, hk, hid⟩ := h.sent r accepted (ht r accepted hr)
  exact ⟨k, Nat.le_trans hk hc, hid⟩

lemma Unsent.of_eq (h : Unsent w) (hb : w'.st.buffer = w.st.buffer) (hn : w'.st.next = w.st.next)
    (ht : ∀ r accepted, .sent r accepted ∈ w'.trace → .sent r accepted ∈ w.trace) : Unsent w' := by
  intro e he r accepted hr
  rw [hb, hn] at he
  exact h e he r accepted (ht r accepted hr)

lemma Numbered.nodup (h : Numbered seed w) (hc : w.entryCounter < 2 ^ 32) :
    (w.st.buffer.map ReportEntry.id).Nodup := by
  obtain ⟨ks, hids, hks, hle⟩ := h.ids
  rw [hids]
  refine (nodup_map_iff_inj_on (hks.imp Nat.ne_of_lt)).mpr ?_
  intro k hk k' hk' heq
  have hlt {k : ℕ} (hk : k ∈ ks) : k < 2 ^ 32 := Nat.lt_of_le_of_lt (hle k hk) hc
  exact entryNo_injective (hlt hk) (hlt hk') heq

lemma numbered_keep (h : Numbered c.entrySeed w) : Numbered c.entrySeed (keep c rs e w) := by
  obtain ⟨ks, hids, hks, hle⟩ := h.ids
  refine ⟨?_, ⟨ks ++ [w.entryCounter + 1], ?_, ?_, ?_⟩, ?_⟩
  · have hlen := h.next_le
    simp only [keep, nextEntryId, note, length_append]
    omega
  · simp [keep, nextEntryId, note, hids, entryNo]
  · refine pairwise_append.mpr ⟨hks, pairwise_singleton _ _, ?_⟩
    intro k hk k' hk'
    rw [mem_singleton.mp hk']
    exact Nat.lt_succ_of_le (hle k hk)
  · intro k hk
    rcases mem_append.mp hk with hk | hk
    · exact Nat.le_succ_of_le (hle k hk)
    · rw [mem_singleton.mp hk]
      rfl
  · intro r accepted hr
    have hr : .sent r accepted ∈ w.trace := by simpa [keep, nextEntryId, note] using hr
    obtain ⟨k, hk, hid⟩ := h.sent r accepted hr
    exact ⟨k, Nat.le_succ_of_le hk, hid⟩

lemma unsent_keep (h : Numbered c.entrySeed w) (hu : Unsent w)
    (hc : (keep c rs e w).entryCounter < 2 ^ 32) : Unsent (keep c rs e w) := by
  intro e' he' r accepted hr
  have hr : .sent r accepted ∈ w.trace := by simpa [keep, nextEntryId, note] using hr
  have hdrop : (keep c rs e w).st.buffer.drop (keep c rs e w).st.next =
      w.st.buffer.drop w.st.next ++ [{ e with id := entryNo c.entrySeed (w.entryCounter + 1) }] :=
    drop_append_of_le_length h.next_le
  rw [hdrop] at he'
  rcases mem_append.mp he' with he' | he'
  · exact hu e' he' r accepted hr
  -- The new identifier is the next one, and none of the reports has it.
  obtain ⟨k, hk, hid⟩ := h.sent r accepted hr
  have hlt : w.entryCounter + 1 < 2 ^ 32 := hc
  rw [mem_singleton.mp he', hid]
  intro heq
  have hke := entryNo_injective (by omega) hlt heq
  omega

lemma numbered_discardOne (h : Numbered seed w) : Numbered seed (discardOne w) := by
  rw [discardOne]
  split
  · exact h
  next oldest rest hbuf =>
  obtain ⟨ks, hids, hks, hle⟩ := h.ids
  have hlen := h.next_le
  rw [hbuf] at hids hlen
  rcases ks with _ | ⟨k, ks⟩
  · simp at hids
  have hrs := (cons.inj hids).2
  have hks' := (pairwise_cons.mp hks).2
  have hle' : ∀ k ∈ ks, k ≤ w.entryCounter := fun k hk => hle k (mem_cons_of_mem _ hk)
  rw [length_cons] at hlen
  split
  · refine ⟨?_, ⟨ks, hrs, hks', hle'⟩, h.sent⟩
    dsimp only
    omega
  refine ⟨?_, ⟨ks, hrs, hks', hle'⟩, ?_⟩
  · simp only [note]
    omega
  · intro r accepted hr
    exact h.sent r accepted (by simpa [note] using hr)

lemma unsent_discardOne (hu : Unsent w) : Unsent (discardOne w) := by
  rw [discardOne]
  split
  · exact hu
  next oldest rest hbuf =>
  split
  next hn =>
    obtain ⟨k, hk⟩ : ∃ k, w.st.next = k + 1 := ⟨w.st.next - 1, by omega⟩
    intro e he r accepted hr
    refine hu e ?_ r accepted hr
    rw [hbuf, hk, drop_succ_cons]
    simpa [hk] using he
  next hn =>
    have h0 : w.st.next = 0 := by omega
    intro e he r accepted hr
    refine hu e ?_ r accepted (by simpa [note] using hr)
    rw [hbuf, h0]
    have he : e ∈ rest := by simpa [note, h0] using he
    exact mem_cons_of_mem _ he

lemma mem_transmit_trace (h : ev ∈ (transmit c rs e w).trace) :
    ev ∈ w.trace ∨ ∃ r accepted, ev = .sent r accepted ∧ r.entry = e := by
  rcases transmit_cases c rs e w with ⟨heq, -⟩ | ⟨conn, sc, -, heq⟩
  · rw [heq] at h
    exact .inl h
  rw [heq] at h
  rcases mem_append.mp h with h | h
  · exact .inl h
  · exact .inr ⟨_, _, mem_singleton.mp h, rfl⟩

lemma transmit_buffer (c : Ctx) (rs : RcbState) (e : ReportEntry) (w : Work) :
    (transmit c rs e w).st.buffer = w.st.buffer ∧ (transmit c rs e w).st.next = w.st.next ∧
      (transmit c rs e w).entryCounter = w.entryCounter := by
  rcases transmit_cases c rs e w with ⟨heq, -⟩ | ⟨conn, sc, -, heq⟩ <;> rw [heq] <;> exact ⟨rfl, rfl, rfl⟩

section
variable (hget : w.st.buffer[w.st.next]? = some e)
include hget

lemma numbered_handed (h : Numbered seed w) : Numbered seed (advance (transmit c rs e w)) := by
  obtain ⟨hbuf, hnx, hctr⟩ := transmit_buffer c rs e w
  obtain ⟨hlt, heq⟩ := List.getElem?_eq_some_iff.mp hget
  obtain ⟨ks, hids, hks, hle⟩ := h.ids
  refine ⟨?_, ⟨ks, ?_, hks, ?_⟩, ?_⟩
  · rw [advance, hbuf, hnx]
    exact hlt
  · rw [advance, hbuf]
    exact hids
  · rw [advance, hctr]
    exact hle
  intro r accepted hr
  rw [advance, hctr]
  rcases mem_transmit_trace hr with hr | ⟨r', accepted', hev, hentry⟩
  · exact h.sent r accepted hr
  -- The entry is one of the buffer.
  obtain ⟨rfl, -⟩ := Event.sent.inj hev
  have hm : e.id ∈ w.st.buffer.map ReportEntry.id := List.mem_map_of_mem (List.mem_of_getElem? hget)
  rw [hids] at hm
  obtain ⟨k, hk, hid⟩ := List.mem_map.mp hm
  exact ⟨k, hle k hk, by rw [hentry, hid]⟩

lemma unsent_handed (hn : (w.st.buffer.map ReportEntry.id).Nodup) (hu : Unsent w) :
    Unsent (advance (transmit c rs e w)) := by
  obtain ⟨hbuf, hnx, -⟩ := transmit_buffer c rs e w
  obtain ⟨hlt, heq⟩ := List.getElem?_eq_some_iff.mp hget
  have hdrop : w.st.buffer.drop w.st.next = e :: w.st.buffer.drop (w.st.next + 1) := by
    rw [List.drop_eq_getElem_cons hlt, heq]
  intro e' he' r accepted hr
  have he' : e' ∈ w.st.buffer.drop (w.st.next + 1) := by
    rw [advance, hbuf, hnx] at he'
    exact he'
  rcases mem_transmit_trace hr with hr | ⟨r', accepted', hev, hentry⟩
  · refine hu e' ?_ r accepted hr
    rw [hdrop]
    exact List.mem_cons_of_mem _ he'
  -- What was sent now is before all that still waits.
  obtain ⟨rfl, -⟩ := Event.sent.inj hev
  have hsub : ((w.st.buffer.drop w.st.next).map ReportEntry.id).Nodup := hn.sublist ((List.drop_sublist _ _).map _)
  rw [hdrop, List.map_cons] at hsub
  rw [hentry]
  intro hid
  apply (List.nodup_cons.mp hsub).1
  rw [hid]
  exact List.mem_map_of_mem he'

end

lemma numbered_kept (h : Numbered c.entrySeed w) : Numbered c.entrySeed (kept c rs e w) :=
  kept_induction (numbered_keep h) fun _ => numbered_discardOne

lemma numbered_rule (c : Ctx) (rs : RcbState) (hb : rs.buffered) : ReportRule c rs (Numbered c.entrySeed) where
  window _ _ _ h := h.of_eq rfl h.next_le (Nat.le_refl _) fun _ _ h => h
  task _ _ _ h := h.of_eq rfl h.next_le (Nat.le_refl _) fun _ _ h => h
  captured _ _ h := h.of_eq rfl h.next_le (Nat.le_refl _) fun _ _ hr => by simpa [note] using hr
  committed _ _ hb' _ := by simp [hb] at hb'
  sent _ _ hb' _ _ := by simp [hb] at hb'
  kept _ _ _ h := numbered_kept h
  handed _ _ _ _ hget h := numbered_handed hget h

/-- As long as the identifiers last, the buffer of a block is in order, and nothing behind the cursor was sent.
-/
structure Waiting (seed : UInt32) (w : Work) : Prop where
  numbered : Numbered seed w
  unsent : w.entryCounter < 2 ^ 32 → Unsent w

lemma waiting_kept (h : Waiting c.entrySeed w) : Waiting c.entrySeed (kept c rs e w) := by
  apply kept_induction
  · exact ⟨numbered_keep h.numbered, fun hc => unsent_keep h.numbered (h.unsent (by
      have hlt : w.entryCounter + 1 < 2 ^ 32 := hc
      omega)) hc⟩
  intro w h
  refine ⟨numbered_discardOne h.numbered, ?_⟩
  intro hc
  apply unsent_discardOne
  apply h.unsent
  rw [discardOne_toEngine] at hc
  exact hc

lemma waiting_rule (c : Ctx) (rs : RcbState) (hb : rs.buffered) : ReportRule c rs (Waiting c.entrySeed) where
  window _ _ _ h := ⟨(numbered_rule c rs hb).window _ _ _ h.numbered,
    fun hc => (h.unsent hc).of_eq rfl rfl fun _ _ hr => hr⟩
  task _ _ _ h := ⟨(numbered_rule c rs hb).task _ _ _ h.numbered,
    fun hc => (h.unsent hc).of_eq rfl rfl fun _ _ hr => hr⟩
  captured _ _ h := ⟨(numbered_rule c rs hb).captured _ _ h.numbered,
    fun hc => (h.unsent hc).of_eq rfl rfl fun _ _ hr => by simpa [note] using hr⟩
  committed _ _ hb' _ := by simp [hb] at hb'
  sent _ _ hb' _ _ := by simp [hb] at hb'
  kept _ _ _ h := waiting_kept h
  handed w e _ _ hget h := by
    refine ⟨numbered_handed hget h.numbered, ?_⟩
    intro hc
    have hc : w.entryCounter < 2 ^ 32 := by
      rw [advance, (transmit_buffer c rs e w).2.2] at hc
      exact hc
    exact unsent_handed hget (h.numbered.nodup hc) (h.unsent hc)

end Iec61850.Server
