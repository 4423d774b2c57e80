import Iec61850.ServerStart
import Iec61850.BitStrings
import Iec61850.ServerHandler

/-! Which changes trigger a data set member, and under which data set what a block holds was captured. -/
namespace Iec61850.Server
open Mms List ReportEntry Block

/-- An entry was captured at an origin, from members of a data set of `n` members. -/
structure CapturedUnder (o : Origin) (n : ℕ) (e : ReportEntry) : Prop where
  known : e.origins ≠ []
  origins : ∀ o' ∈ e.origins, o' = o
  members : ∀ i ∈ e.members, i < n

variable {e : ReportEntry} {v : Value} {i : ℕ}

lemma mem_insert_members {idx : ℕ} {r : ReasonCode}
    (h : i ∈ (e.insert idx v r).members) : i = idx ∨ i ∈ e.members := by
  have hat : e.partitionPoint idx ≤ e.members.length := (takeWhile_sublist _).length_le
  exact (mem_insertIdx hat).mp h

lemma mem_merge_members {other : ReportEntry} (h : i ∈ (e.merge other).members) :
    i ∈ e.members ∨ i ∈ other.members := by
  have hfold (l : List ((ℕ × Value) × ReasonCode)) (e : ReportEntry)
      (h : i ∈ (l.foldl (fun e m => e.insert m.1.1 m.1.2 m.2) e).members) :
      i ∈ e.members ∨ ∃ m ∈ l, m.1.1 = i := by
    induction l generalizing e with
    | nil => exact .inl h
    | cons m rest ih =>
      rcases ih _ h with hi | ⟨m', hm', rfl⟩
      · rcases mem_insert_members hi with rfl | hi
        · exact .inr ⟨m, mem_cons_self, rfl⟩
        · exact .inl hi
      · exact .inr ⟨m', mem_cons_of_mem _ hm', rfl⟩
  rcases hfold _ e h with hi | ⟨m, hm, rfl⟩
  · exact .inl hi
  · have hzip := (of_mem_zip hm).1
    exact .inr (of_mem_zip hzip).1

variable {o : Origin} {n : ℕ}

lemma CapturedUnder.merge {p : ReportEntry} (hp : CapturedUnder o n p) (he : CapturedUnder o n e) :
    CapturedUnder o n (p.merge e) := by
  refine ⟨?_, ?_, ?_⟩
  · simp [ReportEntry.merge, hp.known]
  · intro o' ho
    rcases mem_append.mp ho with ho | ho
    · exact hp.origins o' ho
    · exact he.origins o' ho
  intro i hi
  rcases mem_merge_members hi with hi | hi
  · exact hp.members i hi
  · exact he.members i hi

lemma CapturedUnder.first (he : CapturedUnder o n e) : CapturedUnder o n (({} : ReportEntry).merge e) := by
  refine ⟨?_, ?_, ?_⟩
  · simpa [ReportEntry.merge] using he.known
  · intro o' ho
    exact he.origins o' (by simpa [ReportEntry.merge] using ho)
  intro i hi
  rcases mem_merge_members hi with hi | hi
  · cases hi
  · exact he.members i hi

lemma capturedUnder_collect (m : Model) (members : List DsMember)
    (reason : DsMember → Option ReasonCode) (o : Origin) :
    CapturedUnder o members.length (collect m members reason o) := by
  refine ⟨by simp [collect], by simp [collect], ?_⟩
  intro i hi
  obtain ⟨k, hk, rfl⟩ := mem_map.mp hi
  obtain ⟨x, hx, hid⟩ := mem_filterMap.mp hk
  obtain ⟨j, hj, rfl⟩ := mem_mapIdx.mp hx
  obtain ⟨r, -, hr⟩ := Option.bind_eq_some_iff.mp hid
  obtain ⟨v, -, rfl⟩ := Option.map_eq_some_iff.mp hr
  exact hj

lemma purgeCount_append (trace : List Event) (ev : Event) :
    purgeCount (trace ++ [ev]) = purgeCount trace + purgeCount [ev] := by
  simp [purgeCount, countP_append]

/-- Every report carried an entry captured under the data set that it names, and after the last purge before it.
-/
def SentCurrent (trace : List Event) : Prop :=
  ∀ before r accepted after, trace = before ++ .sent r accepted :: after →
    CapturedUnder ⟨r.datSet, purgeCount before⟩ r.members.length r.entry

lemma SentCurrent.append {trace : List Event} (h : SentCurrent trace) {ev : Event}
    (hev : ∀ r accepted, ev = .sent r accepted →
      CapturedUnder ⟨r.datSet, purgeCount trace⟩ r.members.length r.entry) : SentCurrent (trace ++ [ev]) := by
  intro before r accepted after heq
  rcases History.split_append_one heq with ⟨after', -, hl⟩ | ⟨-, hx, rfl⟩
  · exact h before r accepted after' hl
  · exact hev r accepted hx.symm

def dataSetSize (render : Render) (rs : RcbState) (m : Model) : ℕ :=
  ((resolveDataSet m (attrText render m rs "DatSet")).getD []).length

/-- An entry was captured under the data set a block names now, since its last purge. -/
def Captured (render : Render) (rs : RcbState) (w : Work) (e : ReportEntry) : Prop :=
  CapturedUnder ⟨attrText render w.model rs "DatSet", purgeCount w.trace⟩ (dataSetSize render rs w.model) e

/-- What a block holds is current, and what it has sent was. -/
structure Current (render : Render) (rs : RcbState) (w : Work) : Prop where
  buffer : ∀ e ∈ w.st.buffer, Captured render rs w e
  pending : ∀ e ∈ w.st.pending, Captured render rs w e
  sent : SentCurrent w.trace

/-- Work that neither changes the data set nor purges, and leaves the block current. -/
structure Steady (render : Render) (rs : RcbState) (w w' : Work) : Prop where
  frame : Frame servedAttrs rs w w'
  purges : purgeCount w'.trace = purgeCount w.trace
  current : Current render rs w'

variable {render : Render} {c : Ctx} {rs : RcbState} {w w' w'' : Work} {name : String} {names : List String}
  {conn : ConnId} {generation : ℕ}

lemma attrText_frame (render : Render) (hf : Frame names rs w w')
    (hn : name ∉ names) : attrText render w'.model rs name = attrText render w.model rs name := by
  rw [attrText, hf.model.attr name hn, attrText]

lemma Captured.of_names (h : Captured render rs w e) (hf : Frame names rs w w') (hn : "DatSet" ∉ names)
    (hp : purgeCount w'.trace = purgeCount w.trace) : Captured render rs w' e := by
  have htx := attrText_frame render hf hn
  rw [Captured, dataSetSize, htx, hf.model.resolveDataSet_eq, hp]
  exact h

lemma Captured.of_frame (h : Captured render rs w e) (hf : Frame servedAttrs rs w w')
    (hp : purgeCount w'.trace = purgeCount w.trace) : Captured render rs w' e :=
  h.of_names hf (by decide) hp

lemma Steady.captured (h : Steady render rs w w') (he : Captured render rs w e) :
    Captured render rs w' e := he.of_frame h.frame h.purges

lemma Steady.trans (h : Steady render rs w w') (h' : Steady render rs w' w'') : Steady render rs w w'' :=
  ⟨h.frame.trans h'.frame, h'.purges.trans h.purges, h'.current⟩

section
variable (h : Current render rs w)
include h

lemma Steady.refl : Steady render rs w w := ⟨.refl, rfl, h⟩

lemma Current.steady (hf : Frame servedAttrs rs w w') (hp : purgeCount w'.trace = purgeCount w.trace)
    (hb : ∀ e ∈ w'.st.buffer, e ∈ w.st.buffer ∨ Captured render rs w e)
    (hw : ∀ e ∈ w'.st.pending, e ∈ w.st.pending ∨ Captured render rs w e)
    (hs : SentCurrent w'.trace) : Steady render rs w w' := by
  refine ⟨hf, hp, ?_, ?_, hs⟩
  · intro e he
    rcases hb e he with he | he
    · exact (h.buffer e he).of_frame hf hp
    · exact he.of_frame hf hp
  intro e he
  rcases hw e he with he | he
  · exact (h.pending e he).of_frame hf hp
  · exact he.of_frame hf hp

lemma Current.same (hf : Frame servedAttrs rs w w') (ht : w'.trace = w.trace) (hb : w'.st.buffer = w.st.buffer)
    (hp : w'.st.pending = w.st.pending) : Steady render rs w w' := by
  apply h.steady hf (by rw [ht])
  · intro e he
    rw [hb] at he
    exact .inl he
  · intro e he
    rw [hp] at he
    exact .inl he
  · rw [ht]
    exact h.sent

lemma Current.of_eq (hm : w'.model = w.model) (ht : w'.trace = w.trace)
    (hb : w'.st.buffer = w.st.buffer) (hp : w'.st.pending = w.st.pending) : Current render rs w' := by
  have hcap (e : ReportEntry) (he : Captured render rs w e) : Captured render rs w' e := by
    rw [Captured, hm, ht]
    exact he
  refine ⟨fun e he => hcap e (h.buffer e (hb ▸ he)), fun e he => hcap e (h.pending e (hp ▸ he)), ?_⟩
  rw [ht]
  exact h.sent

lemma Current.note (ev : Event) (hp : purgeCount [ev] = 0)
    (hs : ∀ r accepted, ev ≠ .sent r accepted) : Steady render rs w (note ev w) := by
  apply h.steady (note_frame ev)
  · rw [Server.note, purgeCount_append, hp]
    rfl
  · exact fun e he => Or.inl he
  · exact fun e he => Or.inl he
  · exact h.sent.append fun r accepted heq => absurd heq (hs r accepted)

end

lemma steady_transmit (h : Current c.render rs w) (he : Captured c.render rs w e) :
    Steady c.render rs w (transmit c rs e w) ∧ (transmit c rs e w).st.buffer = w.st.buffer := by
  have hf : Frame servedAttrs rs w (transmit c rs e w) := transmit_frame.emitted
  rcases transmit_cases c rs e w with ⟨heq, -⟩ | ⟨conn, sc, -, heq⟩
  · rw [heq]
    exact ⟨.refl h, rfl⟩
  refine ⟨?_, by rw [heq]; rfl⟩
  rw [heq] at hf ⊢
  apply h.steady hf
  · simp [transmitTo, setSqNum, purgeCount, countP_append]
  · exact fun e he => Or.inl he
  · exact fun e he => Or.inl he
  apply h.sent.append
  intro r accepted heq
  obtain ⟨rfl, -⟩ := Event.sent.inj heq
  -- The report names the data set that the block names now.
  have hq : Frame servedAttrs rs w (setSqNum rs (w.st.sqNum + 1) w) := (setSqNum_frame _).emitted
  have hcap := he.of_frame hq rfl
  exact hcap

lemma steady_transmitFrom (fuel : ℕ) (w : Work) (h : Current c.render rs w) :
    Steady c.render rs w (transmitFrom c rs fuel w) := by
  refine transmitFrom_rule ?_ fuel w (.refl h)
  intro w' e he hw
  obtain ⟨ht, -⟩ := steady_transmit hw.current (hw.current.buffer e (mem_of_getElem? he))
  exact (hw.trans ht).trans (ht.current.same advance_frame rfl rfl rfl)

lemma steady_discardOne (h : Current render rs w) : Steady render rs w (discardOne w) := by
  have hf : Frame servedAttrs rs w (discardOne w) := by
    have hg := discardOne_toEngine w
    exact .of_eq (congrArg Engine.model hg) (congrArg Engine.conns hg) (congrArg Engine.entryCounter hg)
  rcases hb : w.st.buffer with _ | ⟨oldest, buffer⟩
  · have heq : discardOne w = w := by simp [discardOne, hb]
    rw [heq]
    exact .refl h
  have hm : ∀ e ∈ buffer, e ∈ w.st.buffer := by
    intro e he
    rw [hb]
    exact mem_cons_of_mem _ he
  by_cases hn : 0 < w.st.next
  · have heq : discardOne w = { w with st := { w.st with buffer := buffer, next := w.st.next - 1 } } := by
      simp [discardOne, hb, hn]
    rw [heq] at hf ⊢
    exact h.steady hf rfl (fun e he => Or.inl (hm e he)) (fun e he => Or.inl he) h.sent
  have heq : discardOne w = note (.overflowed oldest)
      { w with st := { w.st with buffer := buffer, bufOverflow := true } } := by
    simp [discardOne, hb, hn]
  rw [heq] at hf ⊢
  apply h.steady hf
  · rw [note, purgeCount_append]
    rfl
  · exact fun e he => Or.inl (hm e he)
  · exact fun e he => Or.inl he
  · exact h.sent.append fun r accepted heq => by cases heq

lemma steady_discardOldest (fuel : ℕ) (w : Work) (h : Current render rs w) :
    Steady render rs w (discardOldest rs fuel w) :=
  discardOldest_rule (fun _ hw => hw.trans (steady_discardOne hw.current)) fuel w (.refl h)

lemma steady_keep (h : Current render rs w) (he : Captured render rs w e) : Steady render rs w (keep c rs e w) := by
  apply h.steady keep_frame.emitted
  · simp [keep, nextEntryId, note, purgeCount, countP_append]
  · intro e' he'
    have hm : e' ∈ w.st.buffer ++ [{ e with id := (nextEntryId c w).1 }] := he'
    rcases mem_append.mp hm with he' | he'
    · exact .inl he'
    right
    obtain rfl := mem_singleton.mp he'
    exact ⟨he.known, he.origins, he.members⟩
  · exact fun e' he' => Or.inl he'
  · exact h.sent.append fun r accepted heq => by cases heq

lemma steady_emit (h : Current c.render rs w) (he : Captured c.render rs w e) :
    Steady c.render rs w (emit c rs e w) := by
  have hst : Captured c.render rs w (stamped c e) := ⟨he.known, he.origins, he.members⟩
  cases hb : rs.buffered with
  | false =>
    rw [emit_unbuffered hb]
    have hn : Steady c.render rs w (note (.committed (stamped c e)) w) := h.note _ rfl fun _ _ heq => by cases heq
    split
    · exact hn.trans (steady_transmit hn.current (hn.captured hst)).1
    · exact hn
  | true =>
    rw [emit_buffered hb]
    have hk : Steady c.render rs w (kept c rs e w) := by
      have hkeep := steady_keep (c := c) h hst
      exact hkeep.trans (steady_discardOldest _ _ hkeep.current)
    split
    · exact hk.trans (steady_transmitFrom _ _ hk.current)
    · exact hk

lemma steady_closeWindow (h : Current render rs w) : Steady render rs w (closeWindow w) := by
  apply h.steady closeWindow_frame rfl
  · exact fun e he => Or.inl he
  · nofun
  · exact h.sent

section
variable (h : Current c.render rs w)
include h

lemma steady_flushPending : Steady c.render rs w (flushPending c rs w) := by
  unfold flushPending
  split
  · exact .refl h
  next p hp =>
  have hcl := steady_closeWindow h
  split
  · exact hcl
  · exact hcl.trans (steady_emit hcl.current (hcl.captured (h.pending p hp)))

lemma steady_hold (he : Captured c.render rs w e) : Steady c.render rs w (hold c rs e w) := by
  have hput (p : ReportEntry) (w : Work) (h : Current c.render rs w) (hp : Captured c.render rs w p) :
      Steady c.render rs w (withPending p w) := by
    refine h.steady (.of_eq rfl rfl rfl : Frame servedAttrs rs w (withPending p w)) rfl ?_ ?_ ?_
    · exact fun e he => Or.inl he
    · intro e he
      obtain rfl := Option.some_inj.mp he
      exact .inr hp
    · exact h.sent
  unfold hold
  split
  · next p hp => exact hput _ w h ((h.pending p hp).merge he)
  split
  · exact steady_emit h he
  next w' hw' =>
  have hsp : Steady c.render rs w w' := by
    rw [spawn_eq hw']
    exact h.same (.of_eq rfl rfl rfl) rfl rfl rfl
  exact hsp.trans (hput _ w' hsp.current (hsp.captured he.first))

lemma steady_event (he : Captured c.render rs w e) : Steady c.render rs w (event c rs e w) := by
  unfold event
  split
  · exact steady_emit h he
  split
  · have hfl := steady_flushPending h
    exact hfl.trans (steady_hold hfl.current (hfl.captured he))
  · exact steady_hold h he

end

lemma captured_collect {members : List DsMember} {reason : DsMember → Option ReasonCode}
    (hm : (resolveDataSet w.model (attrText c.render w.model rs "DatSet")).getD [] = members) :
    Captured c.render rs w (collect w.model members reason (originOf c rs w)) := by
  subst hm
  exact capturedUnder_collect _ _ _ _

lemma steady_onUpdateBlock {changes : ChangeSet} (h : Current c.render rs w) :
    Steady c.render rs w (onUpdateBlock c changes rs w) := by
  unfold onUpdateBlock
  split
  · exact .refl h
  split
  · exact .refl h
  next members hm =>
  dsimp only
  split
  · exact .refl h
  have hn := h.note (.captured (collect w.model members
    (wantedReason changes (trgOpsOf w.model rs)) (originOf c rs w))) rfl fun _ _ heq => by cases heq
  refine hn.trans (steady_event hn.current (hn.captured ?_))
  exact captured_collect (by rw [hm]; rfl)

lemma steady_reportAll {reason : ReasonCode} (h : Current c.render rs w) :
    Steady c.render rs w (reportAll c rs reason w) := by
  have hfl := steady_flushPending h
  dsimp only [reportAll]
  split
  · exact hfl
  · exact hfl.trans (steady_emit hfl.current (captured_collect rfl))

lemma steady_reserves (h : Current render rs w) (hr : Reserves rs w w') : Steady render rs w w' := by
  have hfr := hr.frame.reserved
  obtain ⟨_, _, _, _, _, _, _, -, rfl⟩ := hr
  exact h.same hfr rfl rfl rfl

lemma resume_holds (st : RcbRuntime) : (resume st).buffer = st.buffer ∧ (resume st).pending = st.pending := by
  obtain ⟨_, _, h⟩ := resume_eq st
  rw [h]
  exact ⟨rfl, rfl⟩

section
variable (h : Current c.render rs w)
include h

lemma steady_deliver : Steady c.render rs w (deliver c rs w) := by
  unfold deliver
  split
  · have hr : Steady c.render rs w { w with st := resume w.st } :=
      h.same (.of_eq rfl rfl rfl) rfl (resume_holds w.st).1 (resume_holds w.st).2
    exact hr.trans (steady_transmitFrom _ _ hr.current)
  · exact .refl h

lemma steady_enable {ip : Option IpAddr} : Steady c.render rs w (enable c rs conn ip w) := by
  obtain ⟨_, _, _, _, hst⟩ := prepared_st rs conn ip w
  have hp : Steady c.render rs w (prepared rs conn ip w) := by
    apply h.steady prepared_frame
    · rw [prepared_trace, purgeCount_append]
      rfl
    · intro e he
      rw [hst] at he
      exact .inl he
    · intro e he
      rw [hst] at he
      exact .inl he
    · rw [prepared_trace]
      exact h.sent.append fun r accepted heq => by cases heq
  have hd := hp.trans (steady_deliver hp.current)
  exact hd.trans (steady_reserves hd.current .startIntegrity)

lemma steady_disable : Steady c.render rs w (disable c rs w) := by
  have hfl := steady_flushPending h
  have hu : Steady c.render rs w (unsubscribe (flushPending c rs w)) :=
    hfl.trans (hfl.current.same (.of_eq rfl rfl rfl) rfl rfl rfl)
  unfold disable
  split
  · exact hu.trans (steady_reserves hu.current .release)
  · exact hu

lemma steady_disableConnBlock : Steady c.render rs w (disableConnBlock c conn rs w) :=
  disableConnBlock_rule (fun _ => .refl h) (fun _ => steady_disable h)
    fun _ h => h.trans (steady_reserves h.current .release)

end

lemma current_purgeBlock (hw : w.st.pending = none) (hs : SentCurrent w.trace) :
    Current render rs (purgeBlock w) := by
  refine ⟨?_, ?_, ?_⟩
  · nofun
  · intro e he
    rw [show (purgeBlock w).st.pending = w.st.pending from rfl, hw] at he
    cases he
  · exact hs.append fun r accepted heq => by cases heq

lemma current_setAttr (h : Current render rs w) (hn : name ≠ "DatSet") :
    Current render rs { w with model := setAttr w.model rs name v } := by
  have hf : Frame [name] rs w { w with model := setAttr w.model rs name v } :=
    ⟨.setAttr (by simp) v, fun _ => rfl, le_rfl⟩
  have hm : "DatSet" ∉ [name] := by simpa using Ne.symm hn
  exact ⟨fun e he => (h.buffer e he).of_names hf hm rfl,
    fun e he => (h.pending e he).of_names hf hm rfl, h.sent⟩

variable {attr : String} {v : Value} {ip : Option IpAddr}

lemma current_onRcbWrite (h : attr ≠ "DatSet" → Current c.render rs w) (hs : SentCurrent w.trace)
    (hp : purges attr v → w.st.pending = none) : Current c.render rs (onRcbWrite c attr v conn ip rs w) := by
  have hr : WriteRule c attr v conn ip rs
      (fun w => (attr ≠ "DatSet" → Current c.render rs w) ∧ SentCurrent w.trace ∧
        (purges attr v → w.st.pending = none)) (Current c.render rs) :=
    { task := fun h => ⟨fun hne => (h.1 hne).of_eq rfl rfl rfl rfl, h.2⟩
      taken := by
        intro w h _
        rw [Reserves.take.trace, take_st]
        exact ⟨fun hne => (steady_reserves (h.1 hne) .take).current, h.2⟩
      reserved := fun h heq => (steady_reserves (h.1 (by simp [heq])) .take).current
      released := fun h heq _ => (steady_reserves (h.1 (by simp [heq])) .release).current
      idle := fun h _ hne => h.1 hne
      stopped := fun h => h.of_eq rfl rfl rfl rfl
      enabled := fun h heq _ => (steady_enable (h.1 (by simp [heq]))).current
      disabled := fun h heq => (steady_disable (h.1 (by simp [heq]))).current
      reported := fun h => (steady_reportAll h).current
      purged := fun h hp => current_purgeBlock (h.2.2 hp) h.2.1
      answered := fun h ha => current_setAttr h (by rcases ha with rfl | rfl <;> decide)
      resynced := by
        intro w id h
        have hr : Steady c.render rs w { w with st := { w.st with resyncId := some id } } :=
          h.same (.of_eq rfl rfl rfl) rfl rfl rfl
        exact (hr.current.note _ rfl fun _ _ heq => by cases heq).current
      revised := fun h heq => ⟨fun hne => absurd heq hne, h.2⟩ }
  exact hr.onRcbWrite ⟨h, hs, hp⟩

lemma current_windowTask (h : Current c.render rs w) : Current c.render rs (windowTask c generation rs w) := by
  unfold windowTask
  split
  · exact (steady_flushPending h).current
  · exact h

lemma current_integrityTask (h : Current c.render rs w) : Current c.render rs (integrityTask c generation rs w) := by
  unfold integrityTask
  split
  · exact h
  · exact (steady_reportAll h).current

/-- A buffered block is purged only while its window is closed. -/
def PurgesClosed (s : State) : Step → Prop
  | .write _ domain item v _ _ => ∀ p ∈ rcbKey domain item, purges p.2 v = true →
    ∀ b ∈ s.blocks, b.rs.key = p.1 → b.rs.buffered = true → b.st.pending = none
  | _ => True

instance (s : State) (x : Step) : Decidable (PurgesClosed s x) := by
  apply @Step.casesOn (fun x => Decidable (PurgesClosed s x)) x <;> intros <;> dsimp only [PurgesClosed] <;> infer_instance

variable {cfg : Config} {s : State} {x : Step}

lemma CapturedUnder.mono {n' : ℕ} (h : CapturedUnder o n e) (hn : n ≤ n') : CapturedUnder o n' e :=
  ⟨h.known, h.origins, fun i hi => Nat.lt_of_lt_of_le (h.members i hi) hn⟩

lemma Current.of_model (h : Current render rs w)
    (htx : attrText render w'.model rs "DatSet" = attrText render w.model rs "DatSet")
    (hsz : dataSetSize render rs w.model ≤ dataSetSize render rs w'.model)
    (ht : w'.trace = w.trace) (hst : w'.st = w.st) : Current render rs w' := by
  have hcap (e : ReportEntry) (he : Captured render rs w e) : Captured render rs w' e := by
    rw [Captured, htx, ht]
    exact he.mono hsz
  refine ⟨?_, ?_, ?_⟩
  · rw [hst]
    exact fun e he => hcap e (h.buffer e he)
  · rw [hst]
    exact fun e he => hcap e (h.pending e he)
  · rw [ht]
    exact h.sent

def CurrentIn (render : Render) (g : Engine) (b : Block) : Prop :=
  b.rs.buffered = true → Current render b.rs (b.work g)

lemma currentIn_undisturbed (render : Render) : Undisturbed Apart (CurrentIn render) := by
  refine ⟨?_, ?_⟩
  · intro g g' b ha h hb
    exact (h hb).of_eq ha.model rfl rfl rfl
  intro names rs w w' b hf hr h hb
  have htx : attrText render w'.model b.rs "DatSet" = attrText render w.model b.rs "DatSet" := by
    rw [attrText, hf.model.attrValue_other hr, attrText]
  refine (h hb).of_model htx ?_ rfl rfl
  simp only [dataSetSize, work, htx, hf.model.resolveDataSet_eq]
  exact le_rfl

lemma currentIn_rule (cfg : Config) : BlockRule Apart (Beside cfg.render) cfg (CurrentIn cfg.render) where
  undisturbed := currentIn_undisturbed _
  beside g m b hbeside h hb := by
    have htx : attrText cfg.render m b.rs "DatSet" = attrText cfg.render g.model b.rs "DatSet" := by
      rw [attrText, hbeside.attrValue, attrText]
    refine (h hb).of_model htx ?_ rfl rfl
    simp only [dataSetSize, work, htx]
    cases hr : resolveDataSet g.model (attrText cfg.render g.model b.rs "DatSet") with
    | none => exact Nat.zero_le _
    | some members => rw [hbeside.dataSet members hr]
  update now onRuntime _ b g h hb := (steady_onUpdateBlock (c := cfg.ctx now onRuntime) (h hb)).current
  window now _ b g h hb := current_windowTask (c := cfg.ctx now true) (h hb)
  reservation _ _ _ h hb := (steady_reserves (h hb) .reservationTask).current
  integrity now _ b g h hb := current_integrityTask (c := cfg.ctx now true) (h hb)

lemma currentIn_step (hs : Sited s) (hx : Respects cfg s x) (hp : PurgesClosed s x)
    (h : ∀ b ∈ s.blocks, CurrentIn cfg.render s.toEngine b) :
    ∀ b ∈ (step cfg s x).blocks, CurrentIn cfg.render (step cfg s x).toEngine b := by
  refine step_forall_sited (currentIn_rule cfg) hs hx ?_ ?_ h
  · intro b attr v conn now m hw _ hb
    have hcur := h b hw.mem hb
    have hwritten : Current cfg.render b.rs (onRcbWrite (cfg.ctx now true) attr v conn (s.ipOf conn)
        b.rs (b.written s (setAttr s.model b.rs attr v))) := by
      apply current_onRcbWrite (c := cfg.ctx now true)
      · intro hd
        exact current_setAttr hcur hd
      · exact hcur.sent
      intro hpurge
      obtain ⟨domain, item, refusal, ch, rfl, hkey, -⟩ := hw.stored
      exact hp _ hkey hpurge b hw.mem rfl hb
    exact hwritten
  intro conn now sc _ _
  refine onBlocks_forall (currentIn_undisturbed cfg.render) (currentIn_undisturbed _)
    (fun _ _ => disableConnBlock_frame) ?_ (pairwise_map.mp hs.placed.apart) ?_
  · intro b g hc hb
    exact (steady_disableConnBlock (c := cfg.ctx now true) (hc hb)).current
  · intro b hb hbuf
    exact (h b hb hbuf).of_eq rfl rfl rfl rfl

/-- In every run in which no step goes around the rules of a block and no client purges a buffered block
or changes its data set while its window is open: what a buffered block holds was captured under the data
set it names and after its last purge, every report it sent carried only what was captured under the data
set it names and after the last purge before it, and every member index is one of that data set. -/
theorem reports_current {cfg : Config} {m : Model} {bufDefault : ℕ} {runtime : Bool} {s : State}
    {steps : List Step} (hw : WellNamed m) (hs : Started m bufDefault runtime s)
    (hm : Admitted cfg (fun s x => Respects cfg s x ∧ PurgesClosed s x) s steps) :
    ∀ b ∈ (run cfg s steps).blocks, b.rs.buffered = true →
      Current cfg.render b.rs (b.work (run cfg s steps).toEngine) := by
  have hinv : Sited (run cfg s steps) ∧ ∀ b ∈ (run cfg s steps).blocks,
      CurrentIn cfg.render (run cfg s steps).toEngine b := by
    refine run_induction
      (fun s => Sited s ∧ ∀ b ∈ s.blocks, CurrentIn cfg.render s.toEngine b) ?_ ⟨hs.sited hw, ?_⟩ hm
    · intro s x h hx
      exact ⟨sited_step h.1 hx.1, currentIn_step h.1 hx.1 hx.2 h.2⟩
    intro b hb _
    obtain ⟨hmat, htr⟩ := hs.block hb
    obtain ⟨ip, hst⟩ := hmat.fresh
    refine ⟨?_, ?_, ?_⟩
    · intro e he
      simp [work, hst] at he
    · intro e he
      simp [work, hst] at he
    · intro before r accepted after heq
      simp [work, htr] at heq
  exact hinv.2

def purging (closeFirst : Bool) : List Step :=
  let close : Step := .fire (.window "LD\x00LLN0$BR$b01" 0) sampleTime
  [setStVal true] ++ (if closeFirst then [close] else []) ++ [.connect none 0] ++
    writeRequest "LLN0$BR$b01$PurgeBuf" (.boolean true) ++
    writeRequest "LLN0$BR$b01$RptEna" (.boolean true) ++ [close]

/-- The window closes before the purge. -/
theorem reports_current_purged :
    ∃ b ∈ (run sampleConfig (start (sampleModel windowedBlock) 0 true) (purging true)).blocks,
      purgeCount b.trace = 1 ∧ Current sampleConfig.render b.rs
        (b.work (run sampleConfig (start (sampleModel windowedBlock) 0 true) (purging true)).toEngine) := by
  have hrun : ∃ b ∈ (run sampleConfig (start (sampleModel windowedBlock) 0 true) (purging true)).blocks,
      b.rs.buffered = true ∧ purgeCount b.trace = 1 := by decide +kernel
  obtain ⟨b, hb, hbuf, hpurged⟩ := hrun
  exact ⟨b, hb, hpurged, reports_current (by decide +kernel) (started_start _ 0 true) (by decide +kernel) b hb hbuf⟩

def staleAt (events : List Event) (i : ℕ) : Bool :=
  match events[i]? with
  | some (.sent r _) => r.entry.origins.any fun o => o.purges != purgeCount (events.take i)
  | _ => false

lemma not_sentCurrent_of_staleAt {events : List Event} (h : staleAt events i) : ¬ SentCurrent events := by
  intro hs
  unfold staleAt at h
  split at h
  next r accepted hget =>
    obtain ⟨hi, heq⟩ := List.getElem?_eq_some_iff.mp hget
    obtain ⟨o, ho, hne⟩ := List.any_eq_true.mp h
    have hsplit : events = events.take i ++ .sent r accepted :: events.drop (i + 1) := by
      rw [← heq, List.cons_getElem_drop_succ, List.take_append_drop]
    have hcap := (hs _ _ _ _ hsplit).origins o ho
    simp [hcap] at hne
  · cases h

/-- The window is open when the client purges: the value captured before is sent after. -/
theorem purged_value_sent :
    ∃ b ∈ (run sampleConfig (start (sampleModel windowedBlock) 0 true) (purging false)).blocks,
      b.rs.buffered = true ∧ ¬ Current sampleConfig.render b.rs
        (b.work (run sampleConfig (start (sampleModel windowedBlock) 0 true) (purging false)).toEngine) := by
  have hrun : ∃ b ∈ (run sampleConfig (start (sampleModel windowedBlock) 0 true)
      (purging false)).blocks, b.rs.buffered = true ∧ ∃ i < b.trace.length, staleAt b.trace i = true := by
    decide +kernel
  obtain ⟨b, hb, hbuf, i, -, hi⟩ := hrun
  refine ⟨b, hb, hbuf, ?_⟩
  intro h
  exact not_sentCurrent_of_staleAt hi h.sent

end Iec61850.Server

namespace Iec61850.Server
open Mms Text TrgOps DataObject List Option UInt8 FirstMatch ObjectReference

def components (r : ObjectReference) : List String := r.ld :: r.path

def Related (c r : ObjectReference) : Prop := components c <+: components r ∨ components r <+: components c
deriving Decidable

/-- How the engine matches a change with a member. -/
def Touches (changed reference : ObjectReference) : Prop :=
  changed = reference ∨ startsWith changed.text (reference.text ++ ".") = true ∨
    startsWith reference.text (changed.text ++ ".") = true

instance (c r : ObjectReference) : Decidable (Touches c r) := inferInstanceAs (Decidable (_ ∨ _))

/-- Every change is of something in a logical device. -/
def Located (changes : ChangeSet) : Prop := ∀ e ∈ changes.entries, '/' ∈ e.1.1.text.toList

variable {c r : ObjectReference} {d : DsMember} {changes changes' : ChangeSet} {fc : Fc}

lemma located_eq (h : '/' ∈ r.text.toList) : ∃ ld rest, r.text = ld ++ "/" ++ rest ∧ '/' ∉ ld.toList ∧
    components r = ld :: split '.' rest := by
  obtain ⟨ld, rest, hs⟩ := splitOnce_of_mem h
  refine ⟨ld, rest, eq_of_splitOnce rfl hs, not_mem_of_splitOnce hs, ?_⟩
  rw [components, ObjectReference.ld, ObjectReference.path, hs]
  rfl

lemma components_prefix_iff (hc : '/' ∈ c.text.toList) (hr : '/' ∈ r.text.toList) :
    components r <+: components c ↔ c = r ∨ startsWith c.text (r.text ++ ".") := by
  obtain ⟨ld, rest, hrtext, hld, hrcomp⟩ := located_eq hr
  obtain ⟨ld', rest', hctext, hld', hccomp⟩ := located_eq hc
  have hinj {a b : String} (h : ld' ++ "/" ++ a = ld ++ "/" ++ b) : ld = ld' ∧ a = b := by
    have hs := congrArg (split '/') h
    rw [split_append rfl, split_append rfl, split_of_not_mem hld, split_of_not_mem hld'] at hs
    obtain ⟨hlds, hrests⟩ := cons.inj hs
    exact ⟨hlds.symm, split_injective '/' hrests⟩
  have hdot : ".".toList = ['.'] := rfl
  rw [hrcomp, hccomp, cons_prefix_cons, split_prefix_iff hdot, startsWith_iff, startsWith_iff]
  constructor
  · rintro ⟨rfl, rfl | ⟨more, rfl⟩⟩
    · exact .inl (congrArg ObjectReference.mk (hctext.trans hrtext.symm))
    · exact .inr ⟨more, by rw [hctext, hrtext]; simp only [String.append_assoc]⟩
  rintro (rfl | ⟨more, hmo⟩)
  · obtain ⟨hlds, hrests⟩ := hinj (hctext.symm.trans hrtext)
    exact ⟨hlds, .inl hrests⟩
  have htx : ld' ++ "/" ++ rest' = ld ++ "/" ++ (rest ++ "." ++ more) := by
    rw [← hctext, hmo, hrtext]
    simp only [String.append_assoc]
  exact ⟨(hinj htx).1, .inr ⟨more, (hinj htx).2⟩⟩

lemma touches_iff_related (hc : '/' ∈ c.text.toList) (hr : '/' ∈ r.text.toList) : Touches c r ↔ Related c r := by
  rw [Related, components_prefix_iff hc hr, components_prefix_iff hr hc, Touches, eq_comm]
  tauto

def reference (d : DsMember) : ObjectReference := (ObjectReference.fromMms d.domain d.item).1

def constraint (d : DsMember) : Fc := (ObjectReference.fromMms d.domain d.item).2

lemma slash_reference : '/' ∈ (reference d).text.toList := by
  unfold reference fromMms
  split
  · split <;> simp
  · simp

lemma memberReason_eq : memberReason changes d =
    ((changes.entries.filter fun e => e.1.2 = constraint d ∧ Touches e.1.1 (reference d)).map Sigma.snd).foldl
      (· ||| ·) 0 := by
  rw [foldl_map, foldl_filter]
  simp only [decide_eq_true_eq]
  rfl

lemma slash_of_attributeMut {m : Model} {da : DataAttribute} (h : m.attributeMut r fc = some da) :
    '/' ∈ r.text.toList := by
  by_contra hno
  have hnone : splitOnce '/' r.text = none := by
    cases hs : splitOnce '/' r.text with
    | none => rfl
    | some p => exact absurd (by rw [eq_of_splitOnce (t := "/") rfl hs]; simp) hno
  rw [Model.attributeMut, path, hnone] at h
  cases h

lemma located_set {tx : Tx} {v : Value} (h : Located tx.changed) : Located (tx.set r fc v).changed := by
  unfold Tx.set
  split
  · exact h
  next da hda =>
    split
    · intro e he
      rcases mem_cons.mp he with rfl | he
      · exact slash_of_attributeMut hda
      · exact h e ((kerase_sublist _ _).subset he)
    · exact h

lemma located_setAll (m : Model) (sets : List (ObjectReference × Fc × Value)) :
    Located (Tx.setAll { model := m } sets).changed :=
  Runs.invariant (fun tx : Tx => Located tx.changed) (fun _ _ h => located_set h) (by simp [Located]) sets

/-- The reasons of a member are the union of the triggers of exactly the changes under its constraint on the path to
it or below it. A sibling is never one of them. -/
theorem memberReason_union (changes : ChangeSet) (d : DsMember) (h : Located changes) :
    memberReason changes d = ((changes.entries.filter fun e =>
        e.1.2 = constraint d ∧ Related e.1.1 (reference d)).map Sigma.snd).foldl (· ||| ·) 0 ∧
      ∀ c path a b, components c = path ++ [a] → components (reference d) = path ++ [b] → a ≠ b →
        ¬ Related c (reference d) := by
  constructor
  · rw [memberReason_eq, filter_congr]
    intro e he
    rw [decide_eq_decide, touches_iff_related (h e he) slash_reference]
  rintro c path a b hc hr hne (hp | hp)
  · have heq := hp.eq_of_length (by rw [hc, hr]; simp)
    rw [hc, hr] at heq
    exact hne (by simpa using heq)
  have heq := hp.eq_of_length (by rw [hc, hr]; simp)
  rw [hc, hr] at heq
  exact hne (by simpa using heq.symm)

def positionModel : Model := sampleModel windowedBlock

/-- The sample's position is written under a constraint. -/
def positioned (w : Fc) : Tx := Tx.setAll { model := positionModel } [(⟨"LD/LLN0.Pos.stVal"⟩, w, .boolean true)]

theorem position_object_triggered : memberReason (positioned .st).changed ⟨"LD", "LLN0$ST$Pos"⟩ = dataChange ∧
    memberReason (positioned .st).changed ⟨"LD", "LLN0$ST$Pos"⟩ =
      (((positioned .st).changed.entries.filter fun e =>
        e.1.2 = .st ∧ Related e.1.1 ⟨"LD/LLN0.Pos"⟩).map Sigma.snd).foldl (· ||| ·) 0 :=
  ⟨by decide +kernel, (memberReason_union _ ⟨"LD", "LLN0$ST$Pos"⟩ (located_setAll _ _)).1⟩

variable {m : Model} {members : List DsMember} {w f : Fc} {da : DataAttribute} {v : Value}

def raised (da : DataAttribute) (v : Value) : TrgOps :=
  da.trgOps &&& dataUpdate ||| if (da.value.map (·.beq v)).getD false then 0
    else da.trgOps &&& (dataChange ||| qualityChange)

/-- The constraint of the attribute that a lookup enters, which the attributes below inherit. -/
def constraintAt (w : Fc) : List String → DataObject → Option Fc
  | [], _ => none
  | first :: rest, o =>
    match o.child first with
    | some sub => constraintAt w rest sub
    | none => (o.attributes.find? fun a => a.name == first && w.matchesFc a.fc).map DataAttribute.fc

def leafConstraint (m : Model) (r : ObjectReference) (w : Fc) : Option Fc :=
  match r.path with
  | ln :: object :: rest => (m.object r.ld ln object).bind (constraintAt w rest)
  | _ => none

lemma constraintAt_eq (hw : w = .all ∨ w = .none) {path : List String} {o : DataObject}
    (h : constraintAt w path o = some f) : o.attributeAt f path = o.attributeAt w path ∧
      ∀ g, attributeMut f g path o = attributeMut w g path o := by
  induction path generalizing o with
  | nil => cases h
  | cons first rest ih =>
    rw [constraintAt] at h
    cases hch : o.child first with
    | some sub =>
      rw [hch] at h
      obtain ⟨hat, hmut⟩ := ih h
      simp only [attributeAt, attributeMut, hch, hat, true_and]
      intro g
      rw [update_congr_fun fun a ha => ?_]
      rw [mem_unique ha hch, hmut]
    | none =>
      rw [hch] at h
      obtain ⟨a, ha, rfl⟩ := map_eq_some_iff.mp h
      have hfnd := find?_some ha
      simp only [Bool.and_eq_true, beq_iff_eq] at hfnd
      have hwider (b : DataAttribute) (hb : (b.name == first && a.fc.matchesFc b.fc)) :
          (b.name == first && w.matchesFc b.fc) := by
        rw [(Bool.and_eq_true_iff.mp hb).1]
        rcases hw with rfl | rfl <;> rfl
      have hown : (a.name == first && a.fc.matchesFc a.fc) := by simp [hfnd.1, Fc.matchesFc]
      simp only [attributeAt, attributeMut, hch, ha, find_of_wider hwider ha hown,
        update_of_wider hwider ha hown, implies_true, and_self]

lemma set_wildcard (hw : w = .all ∨ w = .none) (h : leafConstraint m r w = some f) :
    m.attributeMut r f = m.attributeMut r w ∧ m.setAttribute r f v = m.setAttribute r w v := by
  unfold leafConstraint at h
  split at h
  next ln object rest hpath =>
    obtain ⟨o, ho, hf⟩ := bind_eq_some_iff.mp h
    obtain ⟨hat, hmut⟩ := constraintAt_eq hw hf
    simp only [Model.attributeMut, Model.setAttribute, hpath, ho, bind_some, hat, true_and]
    apply Model.objectMut_congr
    intro x hx
    obtain rfl := mem_unique ho hx
    exact hmut _
  · cases h

/-- The entry that a report control block over the data set captures, whatever triggers it asks for, and what a log
control block over it writes. -/
structure SameTriggered (tx tx' : Tx) (members : List DsMember) : Prop where
  reports : ∀ want origin, collect tx.model members (wantedReason tx.changed want) origin =
    collect tx'.model members (wantedReason tx'.changed want) origin
  logs : ∀ render lcb, resolveDataSet tx.model (lcbDatSet render tx.model lcb) = some members →
    Logging.logged render tx.model tx.changed lcb = Logging.logged render tx'.model tx'.changed lcb

def Valued (m : Model) (d : DsMember) : Prop := (itemValue m d.domain d.item).isSome = true

lemma mem_collect {reason : DsMember → Option ReasonCode} {o : Origin} {i : ℕ} :
    i ∈ (collect m members reason o).members ↔ ∃ d, members[i]? = some d ∧ (reason d).isSome ∧ Valued m d := by
  simp only [collect, Valued, List.mem_map, List.mem_filterMap, id, List.mem_mapIdx, Option.isSome_iff_exists]
  constructor
  · rintro ⟨k, ⟨x, ⟨j, hj, rfl⟩, hk⟩, rfl⟩
    obtain ⟨e, he, hmap⟩ := Option.bind_eq_some_iff.mp hk
    obtain ⟨v, hv, rfl⟩ := Option.map_eq_some_iff.mp hmap
    exact ⟨members[j], List.getElem?_eq_getElem hj, ⟨e, he⟩, v, hv⟩
  rintro ⟨d, hd, ⟨e, he⟩, v, hv⟩
  obtain ⟨hi, rfl⟩ := List.getElem?_eq_some_iff.mp hd
  exact ⟨(i, v, e), ⟨_, ⟨i, hi, rfl⟩, by rw [he, Option.bind_some, hv, Option.map_some]⟩, rfl⟩

lemma sameTriggered_of_reason (h : ∀ d ∈ members, Valued m d → memberReason changes d = memberReason changes' d) :
    SameTriggered ⟨m, changes⟩ ⟨m, changes'⟩ members := by
  constructor
  · intro want origin
    have hfnd : (members.mapIdx fun i d => (wantedReason changes want d).bind fun r =>
          (itemValue m d.domain d.item).map fun v => (i, v, r)) =
        members.mapIdx fun i d => (wantedReason changes' want d).bind fun r =>
          (itemValue m d.domain d.item).map fun v => (i, v, r) := by
      apply mapIdx_eq_mapIdx_iff.mpr
      intro i hi
      cases hv : itemValue m members[i].domain members[i].item with
      | none => simp
      | some v =>
        have hreason := h members[i] (getElem_mem hi) (by rw [Valued, hv]; rfl)
        rw [wantedReason, wantedReason, hreason]
    simp only [collect, hfnd]
  intro render lcb hmbs
  unfold Logging.logged
  simp only [hmbs]
  have hvars (want : TrgOps) :
      members.foldl (fun vars d => if memberReason changes d &&& want ≠ 0 then
        appendMember m lcb (memberReason changes d &&& want) vars d else vars) [] =
      members.foldl (fun vars d => if memberReason changes' d &&& want ≠ 0 then
        appendMember m lcb (memberReason changes' d &&& want) vars d else vars) [] := by
    apply foldl_ext
    intro vars d hd
    cases hv : itemValue m d.domain d.item with
    | none => simp [appendMember, hv]
    | some v => rw [h d hd (by rw [Valued, hv]; rfl)]
  simp only [hvars]

lemma memberReason_singleton {t : TrgOps} : memberReason (AList.singleton (r, f) t) d =
    if f = constraint d ∧ Touches r (reference d) then t else 0 := by
  rw [memberReason_eq]
  have hent : (AList.singleton (r, f) t : ChangeSet).entries = [⟨(r, f), t⟩] := rfl
  rw [hent]
  by_cases h : f = constraint d ∧ Touches r (reference d)
  · simp [h]
  · simp [h]

lemma set_leaf (hda : m.attributeMut r w = some da) (hleaf : da.children.isEmpty) :
    Tx.set { model := m } r w v = ⟨m.setAttribute r w v, AList.singleton (r, w) (raised da v)⟩ := by
  have hraised : (0 : TrgOps) ||| raised da v = raised da v := UInt8.zero_or
  rw [← hraised, Tx.set, hda]
  dsimp only
  rw [if_pos hleaf]
  cases hv : da.value <;> simp [record, raised, hv]

lemma raised_and : raised da v &&& (changeTriggers &&& changeTriggers) = raised da v := by
  have hupdate : dataUpdate &&& (changeTriggers &&& changeTriggers) = dataUpdate := by decide
  have hchg : (dataChange ||| qualityChange) &&& (changeTriggers &&& changeTriggers) =
      dataChange ||| qualityChange := by decide
  unfold raised
  split
  · rw [UInt8.or_zero, UInt8.and_assoc, hupdate]
  have hor (a b c : UInt8) : (a ||| b) &&& c = a &&& c ||| b &&& c :=
    UInt8.eq_of_toBitVec_eq BitVec.and_or_distrib_right
  rw [hor, UInt8.and_assoc, UInt8.and_assoc, hupdate, hchg]

lemma isSome_wantedReason : (wantedReason (AList.singleton (r, f) (raised da v)) changeTriggers d).isSome ↔
    raised da v ≠ 0 ∧ f = constraint d ∧ Touches r (reference d) := by
  rw [wantedReason, memberReason_singleton]
  by_cases h : f = constraint d ∧ Touches r (reference d)
  · rw [if_pos h, raised_and]
    by_cases hz : raised da v = 0 <;> simp [hz, h]
  · simp [h]

/-- An update under a wildcard is reported and logged like one under the constraint of its leaf if and only if
it raises no trigger, or no member that it touches stands under that constraint or the wildcard. -/
theorem wildcard_triggers_iff (m : Model) (r : ObjectReference) (w f : Fc) (da : DataAttribute) (v : Value)
    (members : List DsMember) (hw : w = .all ∨ w = .none) (hda : m.attributeMut r w = some da)
    (hleaf : da.children.isEmpty = true) (hf : leafConstraint m r w = some f) :
    SameTriggered (Tx.set { model := m } r w v) (Tx.set { model := m } r f v) members ↔
      f = w ∨ raised da v = 0 ∨ ∀ d ∈ members, Valued (m.setAttribute r w v) d → Touches r (reference d) →
        constraint d ≠ f ∧ constraint d ≠ w := by
  obtain ⟨hat, hset⟩ := set_wildcard hw hf
  rw [set_leaf hda hleaf, set_leaf (hat.trans hda) hleaf, hset]
  constructor
  · intro hsm
    by_contra! hno
    obtain ⟨hne, hraised, d, hd, hv, htouch, hfc⟩ := hno
    obtain ⟨i, hi⟩ := mem_iff_getElem?.mp hd
    have hmbs := congrArg ReportEntry.members (hsm.reports changeTriggers ⟨"", 0⟩)
    have hiff : w = constraint d ↔ f = constraint d := by
      have hm := iff_of_eq (congrArg (i ∈ ·) hmbs)
      simp only [mem_collect, hi, some.injEq, exists_eq_left', isSome_wantedReason] at hm
      simpa [hraised, htouch, hv] using hm
    by_cases hdf : constraint d = f
    · exact hne ((hiff.mpr hdf.symm).trans hdf).symm
    · exact hdf (hiff.mp (hfc hdf).symm).symm
  intro h
  apply sameTriggered_of_reason
  intro d hd hv
  rw [memberReason_singleton, memberReason_singleton]
  rcases h with rfl | hz | hnone
  · rfl
  · rw [hz, ite_self, ite_self]
  by_cases ht : Touches r (reference d)
  · obtain ⟨hnf, hnw⟩ := hnone d hd hv ht
    rw [if_neg fun h => hnw h.1.symm, if_neg fun h => hnf h.1.symm]
  · rw [if_neg fun h => ht h.2, if_neg fun h => ht h.2]

/-- The data set has the position under another constraint only. -/
theorem wildcard_same_elsewhere : SameTriggered (positioned .all) (positioned .st) [⟨"LD", "LLN0$CF$Pos"⟩] := by
  refine (wildcard_triggers_iff positionModel ⟨"LD/LLN0.Pos.stVal"⟩ .all .st _ (.boolean true) _ (.inl rfl) rfl rfl
    (by decide +kernel)).mpr (.inr (.inr ?_))
  simp only [mem_singleton, forall_eq]
  exact fun _ _ => by decide +kernel

/-- The position is written under `*`: the block over it reports nothing, and it does when it is written under ST. -/
theorem wildcard_unreported : ¬ SameTriggered (positioned .all) (positioned .st) [⟨"LD", "LLN0$ST$Pos$stVal"⟩] := by
  intro h
  have hmbs := congrArg ReportEntry.members (h.reports dataChange ⟨"ds", 0⟩)
  revert hmbs
  decide +kernel

open Asn1 BitString

/-- Two bit strings with the same valid bits are one value, and writing one over the other raises at
most a data update, exactly when what they hold beyond those bits is the same. -/
theorem same_bits_unchanged_iff {x y : List UInt8} {a b : BitString} (hx : decodeBitString x = .ok a)
    (hy : decodeBitString y = .ok b) (hlen : a.length = b.length) (hbits : ∀ i, a.bit i = b.bit i) :
    ((Value.bitString a).beq (.bitString b) = true ∧
      ∀ (changes : ChangeSet) (r : ObjectReference) (fc : Fc) (trg : TrgOps),
        record changes r fc trg (some (.bitString a)) (.bitString b) =
          changes.insert (r, fc) ((changes.lookup (r, fc)).getD 0 ||| trg &&& dataUpdate)) ↔
      a.padding = b.padding := by
  constructor
  · intro h
    have hab : a = b := by simpa [Value.beq] using h.1
    rw [hab]
  intro hpad
  have hab : a = b := ext_bit (packed_of_decode hx) (packed_of_decode hy) hlen hbits hpad
  have heq : (Value.bitString a).beq (.bitString b) = true := by simp [Value.beq, hab]
  refine ⟨heq, ?_⟩
  intro changes r fc trg
  simp [record, heq]

theorem same_bits_unchanged_at : decodeBitString [4, 0xA5] = .ok ⟨[0xA5], 4⟩ ∧
    (Value.bitString ⟨[0xA5], 4⟩).beq (.bitString ⟨[0xA5], 4⟩) = true :=
  ⟨rfl, ((same_bits_unchanged_iff (x := [4, 0xA5]) (y := [4, 0xA5]) rfl rfl rfl fun _ => rfl).mpr rfl).1⟩

/-- A peer that fills the padding of the same four bits with ones changes the data. -/
theorem padding_raises_change : ∃ a b : BitString, decodeBitString [4, 0xA0] = .ok a ∧
    decodeBitString [4, 0xAF] = .ok b ∧ a.length = b.length ∧ (∀ i, a.bit i = b.bit i) ∧
    (record ∅ ⟨"LD/LLN0.Mod.q"⟩ .st qualityChange (some (.bitString a)) (.bitString b)).lookup
      (⟨"LD/LLN0.Mod.q"⟩, .st) = some qualityChange := by
  refine ⟨⟨[0xA0], 4⟩, ⟨[0xAF], 4⟩, rfl, rfl, rfl, ?_, by decide⟩
  intro i
  dsimp only [bit]
  split
  · rfl
  next h =>
  have hcs : i = 0 ∨ i = 1 ∨ i = 2 ∨ i = 3 := by omega
  rcases hcs with rfl | rfl | rfl | rfl
  all_goals rfl

end Iec61850.Server
