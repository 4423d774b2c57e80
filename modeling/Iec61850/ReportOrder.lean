import Iec61850.Sequences
import Iec61850.ServerStart

/-! The values of a member reach the committed reports in the order of their capture, each once, however windows,
interrogations and disables interleave. -/
namespace Iec61850.Server
open Mms Columns List Option

def rows (e : ReportEntry) : List ((ℕ × Value) × ReasonCode) := (e.members.zip e.values).zip e.reasons

def valuesOf (i : ℕ) (e : ReportEntry) : List Value :=
  (rows e).filterMap fun m => if m.1.1 = i then some m.1.2 else none

def changeValue (i : ℕ) (m : (ℕ × Value) × ReasonCode) : Option Value :=
  if m.1.1 = i ∧ m.2 &&& changeTriggers ≠ 0 then some m.1.2 else none

def changeValues (i : ℕ) (e : ReportEntry) : List Value := (rows e).filterMap (changeValue i)

/-- The members of an entry ascend, with a value and a reason each. -/
structure Aligned (e : ReportEntry) : Prop where
  ascending : e.members.Pairwise (· < ·)
  values : e.values.length = e.members.length
  reasons : e.reasons.length = e.members.length

variable {e other : ReportEntry} {idx i : ℕ} {v : Value} {r : ReasonCode}

lemma Aligned.insert (h : Aligned e) (hi : idx ∉ e.members) : Aligned (e.insert idx v r) := by
  have hat := place_le e.members idx
  have hlen {α : Type} {l : List α} (a : α) (hl : l.length = e.members.length) :
      (l.insertIdx (place e.members idx) a).length = e.members.length + 1 := by
    rw [length_insertIdx_of_le_length (by omega), hl]
  have hm : (e.insert idx v r).members.length = e.members.length + 1 := hlen idx rfl
  refine ⟨pairwise_insertIdx_place h.ascending hi, ?_, ?_⟩
  · rw [hm]
    exact hlen v h.values
  · rw [hm]
    exact hlen r h.reasons

lemma rows_insert (h : Aligned e) : rows (e.insert idx v r) =
    (rows e).insertIdx (place e.members idx) ((idx, v), r) := by
  have hzip : (e.members.zip e.values).length = e.reasons.length := by
    simp [h.values, h.reasons]
  have hv := zip_insertIdx h.values.symm (place e.members idx) idx v
  have hr := zip_insertIdx hzip (place e.members idx) (idx, v) r
  calc rows (e.insert idx v r)
      = ((e.members.insertIdx (place e.members idx) idx).zip
          (e.values.insertIdx (place e.members idx) v)).zip (e.reasons.insertIdx (place e.members idx) r) := rfl
    _ = ((e.members.zip e.values).insertIdx (place e.members idx) (idx, v)).zip
          (e.reasons.insertIdx (place e.members idx) r) := by rw [hv]
    _ = (rows e).insertIdx (place e.members idx) ((idx, v), r) := hr

lemma changeValues_of_not_mem (h : i ∉ e.members) : changeValues i e = [] := by
  apply filterMap_eq_nil_iff.mpr
  intro m hm
  have hmem : m.1.1 ∈ e.members := (of_mem_zip (of_mem_zip hm).1).1
  have hne : m.1.1 ≠ i := fun heq => h (heq ▸ hmem)
  simp [changeValue, hne]

lemma changeValues_insert (h : Aligned e) (hi : idx ∉ e.members) :
    changeValues i (e.insert idx v r) = changeValues i e ++ [((idx, v), r)].filterMap (changeValue i) := by
  rw [changeValues, rows_insert h]
  rcases hsel : changeValue i ((idx, v), r) with _ | u
  · simp [filterMap_insertIdx_none hsel, changeValues, hsel]
  -- The row is one of member `i`, which the entry does not have yet.
  obtain rfl : idx = i := by
    by_contra hne
    simp [changeValue, hne] at hsel
  have hno := changeValues_of_not_mem hi
  have hrows : (rows e).length = e.members.length := by simp [rows, h.values, h.reasons]
  rw [filterMap_insertIdx_some hsel (by rw [hrows]; exact place_le _ _) hno, hno]
  simp [hsel]

lemma foldl_insert (l : List ((ℕ × Value) × ReasonCode)) (e : ReportEntry) (h : Aligned e)
    (hl : (l.map fun m => m.1.1).Nodup) (hd : ∀ m ∈ l, m.1.1 ∉ e.members) :
    let e' := l.foldl (fun e m => e.insert m.1.1 m.1.2 m.2) e
    Aligned e' ∧ ∀ i, changeValues i e' = changeValues i e ++ l.filterMap (changeValue i) := by
  induction l generalizing e with
  | nil => exact ⟨h, fun i => by simp⟩
  | cons m rest ih =>
    obtain ⟨hm, hrs⟩ := nodup_cons.mp hl
    have hnew := hd m mem_cons_self
    obtain ⟨ha, hv⟩ := ih (e.insert m.1.1 m.1.2 m.2) (h.insert hnew) hrs (by
      intro m' hm' hmem
      rcases (mem_insertIdx (place_le _ _)).mp hmem with heq | hmem
      · exact hm (mem_map.mpr ⟨m', hm', heq⟩)
      · exact hd m' (mem_cons_of_mem _ hm') hmem)
    refine ⟨ha, ?_⟩
    intro i
    rw [foldl_cons, hv i, changeValues_insert h hnew, append_assoc, ← filterMap_append]
    rfl

lemma merge_spec (h : Aligned e) (ho : Aligned other) (hd : ∀ m ∈ other.members, m ∉ e.members) :
    Aligned (e.merge other) ∧ ∀ i, changeValues i (e.merge other) = changeValues i e ++ changeValues i other := by
  have hkeys : (rows other).map (fun m => m.1.1) = other.members := by
    have hzip : (other.members.zip other.values).length ≤ other.reasons.length := by
      simp [ho.reasons]
    calc (rows other).map (fun m => m.1.1)
        = ((rows other).map Prod.fst).map Prod.fst := by rw [List.map_map]; rfl
      _ = (other.members.zip other.values).map Prod.fst := by rw [rows, List.map_fst_zip hzip]
      _ = other.members := List.map_fst_zip (Nat.le_of_eq ho.values.symm)
  obtain ⟨ha, hv⟩ := foldl_insert (rows other) e h
    (hkeys ▸ ho.ascending.imp Nat.ne_of_lt)
    (fun m hm => hd _ (List.of_mem_zip (List.of_mem_zip hm).1).1)
  exact ⟨⟨ha.ascending, ha.values, ha.reasons⟩, hv⟩

lemma not_mem_of_not_overlaps (h : e.overlaps other = false) : ∀ m ∈ other.members, m ∉ e.members := by
  intro m hm hmem
  have hany : e.overlaps other := any_eq_true.mpr ⟨m, hm, by simpa using hmem⟩
  rw [hany] at h
  cases h

variable {m : Model} {members : List DsMember} {reason : DsMember → Option ReasonCode} {o : Origin}
  {changes : ChangeSet}

def collected (m : Model) (members : List DsMember) (reason : DsMember → Option ReasonCode) :
    List (ℕ × Value × ReasonCode) :=
  (members.mapIdx fun i d =>
    (reason d).bind fun r => (itemValue m d.domain d.item).map fun v => (i, v, r)).filterMap id

lemma aligned_collect : Aligned (collect m members reason o) := by
  have hpair : (collected m members reason).Pairwise fun a b => a.1 < b.1 := by
    rw [collected, pairwise_filterMap, pairwise_iff_getElem]
    intro j k hj hk hjk a ha b hb
    rw [getElem_mapIdx] at ha hb
    obtain ⟨r, -, hr⟩ := bind_eq_some_iff.mp ha
    obtain ⟨v, -, rfl⟩ := map_eq_some_iff.mp hr
    obtain ⟨r', -, hr'⟩ := bind_eq_some_iff.mp hb
    obtain ⟨v', -, rfl⟩ := map_eq_some_iff.mp hr'
    exact hjk
  refine ⟨?_, ?_, ?_⟩
  · exact pairwise_map.mpr hpair
  · simp [collect]
  · simp [collect]

lemma reason_of_mem_rows {row : (ℕ × Value) × ReasonCode}
    (h : row ∈ rows (collect m members reason o)) : ∃ d, reason d = some row.2 := by
  have hm := (of_mem_zip h).2
  obtain ⟨k, hk, hrow⟩ := mem_map.mp hm
  obtain ⟨x, hx, hid⟩ := mem_filterMap.mp hk
  obtain ⟨j, hj, rfl⟩ := mem_mapIdx.mp hx
  obtain ⟨r, hr, hmap⟩ := bind_eq_some_iff.mp hid
  obtain ⟨v, -, rfl⟩ := map_eq_some_iff.mp hmap
  exact ⟨_, hr.trans (congrArg some hrow)⟩

lemma changeValues_collect_wanted {want : TrgOps} (i : ℕ) :
    changeValues i (collect m members (wantedReason changes want) o) =
      valuesOf i (collect m members (wantedReason changes want) o) := by
  apply filterMap_congr
  intro row hrow
  obtain ⟨d, hd⟩ := reason_of_mem_rows hrow
  have hchg : row.2 &&& changeTriggers ≠ 0 := by
    unfold wantedReason at hd
    dsimp only at hd
    split at hd
    · cases hd
    next hne =>
      rw [← some_inj.mp hd, UInt8.and_assoc, UInt8.and_assoc, UInt8.and_self]
      exact hne
  simp [changeValue, hchg]

lemma changeValues_collect_all (hr : r &&& changeTriggers = 0) (i : ℕ) :
    changeValues i (collect m members (fun _ => some r) o) = [] := by
  apply filterMap_eq_nil_iff.mpr
  intro row hrow
  obtain ⟨d, hd⟩ := reason_of_mem_rows hrow
  have hrow2 : row.2 = r := (some_inj.mp hd).symm
  simp [changeValue, hrow2, hr]

def isLedger : Event → Bool
  | .captured _ | .committed _ => true
  | _ => false

def ledger (trace : List Event) : List Event := trace.filter isLedger

def capturedBy (i : ℕ) : Event → List Value
  | .captured e => valuesOf i e
  | _ => []

def committedBy (i : ℕ) : Event → List Value
  | .committed e => changeValues i e
  | _ => []

def capturedValues (i : ℕ) (trace : List Event) : List Value := trace.flatMap (capturedBy i)

def committedValues (i : ℕ) (trace : List Event) : List Value := trace.flatMap (committedBy i)

def windowValues (i : ℕ) (pending : Option ReportEntry) : List Value :=
  (pending.map (changeValues i)).getD []

lemma flatMap_ledger {f : Event → List Value} (hf : ∀ ev, isLedger ev = false → f ev = [])
    (trace : List Event) : (ledger trace).flatMap f = trace.flatMap f := by
  induction trace with
  | nil => rfl
  | cons ev rest ih =>
    rw [ledger, filter_cons]
    split
    · rw [flatMap_cons, flatMap_cons, ← ih]
      rfl
    · next hev => rw [flatMap_cons, hf ev (by simpa using hev), nil_append, ← ih, ledger]

lemma capturedValues_ledger (i : ℕ) (trace : List Event) : capturedValues i (ledger trace) = capturedValues i trace :=
  flatMap_ledger (fun ev hev => by cases ev <;> first | rfl | cases hev) trace

lemma committedValues_ledger (i : ℕ) (trace : List Event) :
    committedValues i (ledger trace) = committedValues i trace :=
  flatMap_ledger (fun ev hev => by cases ev <;> first | rfl | cases hev) trace

lemma mem_ledger {trace : List Event} : .committed e ∈ ledger trace ↔ .committed e ∈ trace := by
  simp [ledger, isLedger]

/-- Values are committed in the order of their capture, each once; those not yet committed wait in the
window. Every committed entry is aligned. -/
structure InOrder (st : RcbRuntime) (trace : List Event) : Prop where
  values : ∀ i, capturedValues i trace = committedValues i trace ++ windowValues i st.pending
  aligned : ∀ e, .committed e ∈ trace → Aligned e
  window : ∀ p ∈ st.pending, Aligned p

/-- The same while a captured entry is still owed. -/
structure Owing (owed : ℕ → List Value) (w : Work) : Prop where
  values : ∀ i, capturedValues i w.trace = committedValues i w.trace ++ windowValues i w.st.pending ++ owed i
  aligned : ∀ e, .committed e ∈ w.trace → Aligned e
  window : ∀ p ∈ w.st.pending, Aligned p

variable {owed : ℕ → List Value} {w w' : Work}

lemma owing_nil : Owing (fun _ => []) w ↔ InOrder w.st w.trace := by
  constructor
  · intro h
    exact ⟨fun i => by simpa using h.values i, h.aligned, h.window⟩
  · intro h
    exact ⟨fun i => by simpa using h.values i, h.aligned, h.window⟩

lemma Owing.of_ledger (h : Owing owed w) (ht : ledger w'.trace = ledger w.trace)
    (hp : w'.st.pending = w.st.pending) : Owing owed w' := by
  refine ⟨?_, ?_, ?_⟩
  · intro i
    rw [← capturedValues_ledger, ← committedValues_ledger, ht, hp, capturedValues_ledger, committedValues_ledger]
    exact h.values i
  · intro e he
    rw [← mem_ledger, ht, mem_ledger] at he
    exact h.aligned e he
  · rw [hp]
    exact h.window

lemma Owing.commit {owed' : ℕ → List Value} (h : Owing owed w) (he : Aligned e)
    (ht : ledger w'.trace = ledger w.trace ++ [.committed e]) (hp : w'.st.pending = none)
    (hv : ∀ i, windowValues i w.st.pending ++ owed i = changeValues i e ++ owed' i) : Owing owed' w' := by
  refine ⟨?_, ?_, ?_⟩
  · intro i
    have hcap : capturedValues i w'.trace = capturedValues i w.trace := by
      rw [← capturedValues_ledger, ht, capturedValues, flatMap_append, ← capturedValues, capturedValues_ledger]
      simp [capturedBy]
    have hcom : committedValues i w'.trace = committedValues i w.trace ++ changeValues i e := by
      rw [← committedValues_ledger, ht, committedValues, flatMap_append, ← committedValues, committedValues_ledger]
      simp [committedBy]
    rw [hcap, h.values, hcom, hp, append_assoc, hv]
    simp [windowValues]
  · intro e' he'
    rw [← mem_ledger, ht, mem_append, mem_ledger] at he'
    rcases he' with he' | he'
    · exact h.aligned e' he'
    · obtain rfl : e' = e := by simpa using he'
      exact he
  · rw [hp]
    intro p hp
    cases hp

variable {c : Ctx} {rs : RcbState}

lemma ledger_transmit : ledger (transmit c rs e w).trace = ledger w.trace := by
  rcases transmit_cases c rs e w with ⟨heq, -⟩ | ⟨conn, sc, -, heq⟩
  · rw [heq]
  · rw [heq]
    simp [transmitTo, setSqNum, ledger, isLedger]

lemma ledger_transmitFrom (fuel : ℕ) (w : Work) : ledger (transmitFrom c rs fuel w).trace = ledger w.trace :=
  transmitFrom_rule (Q := fun w' => ledger w'.trace = ledger w.trace) (fun _ _ _ h => ledger_transmit.trans h) fuel w rfl

lemma ledger_discardOne : ledger (discardOne w).trace = ledger w.trace := by
  rw [discardOne]
  split
  · rfl
  split
  · rfl
  · simp [note, ledger, isLedger]

lemma ledger_discardOldest (fuel : ℕ) (w : Work) : ledger (discardOldest rs fuel w).trace = ledger w.trace :=
  discardOldest_rule (Q := fun w' => ledger w'.trace = ledger w.trace) (fun _ h => ledger_discardOne.trans h) fuel w rfl

lemma ledger_emit (c : Ctx) (rs : RcbState) (e : ReportEntry) (w : Work) : ∃ id time, ledger (emit c rs e w).trace =
    ledger w.trace ++ [.committed { e with id := id, time := time }] := by
  cases hb : rs.buffered with
  | false =>
    refine ⟨e.id, c.now, ?_⟩
    have hn : ledger (note (.committed (stamped c e)) w).trace =
        ledger w.trace ++ [.committed { e with id := e.id, time := c.now }] := by
      simp [note, ledger, isLedger, stamped]
    rw [emit_unbuffered hb]
    split
    · rw [ledger_transmit, hn]
    · exact hn
  | true =>
    refine ⟨(nextEntryId c w).1, c.now, ?_⟩
    have hk : ledger (kept c rs e w).trace =
        ledger w.trace ++ [.committed { e with id := (nextEntryId c w).1, time := c.now }] := by
      rw [kept, ledger_discardOldest]
      simp [keep, nextEntryId, note, ledger, isLedger, stamped]
    rw [emit_buffered hb]
    split
    · rw [transmitBuffered, ledger_transmitFrom, hk]
    · exact hk

lemma owing_emit (h : Owing (fun i => changeValues i e) w) (he : Aligned e)
    (hp : w.st.pending = none) : Owing (fun _ => []) (emit c rs e w) := by
  obtain ⟨id, time, ht⟩ := ledger_emit c rs e w
  apply h.commit (e := { e with id := id, time := time }) ⟨he.ascending, he.values, he.reasons⟩ ht
  · rw [emit_control.pending, hp]
  intro i
  rw [hp]
  simp [windowValues, changeValues, rows]

lemma owing_flushPending (h : Owing owed w) : Owing owed (flushPending c rs w) := by
  unfold flushPending
  split
  · exact h
  next p hp =>
  split
  next hemp =>
    have hno (i : ℕ) : changeValues i p = [] := changeValues_of_not_mem (by simp [isEmpty_iff.mp hemp])
    refine ⟨?_, h.aligned, ?_⟩
    · intro i
      have hv := h.values i
      rw [hp] at hv
      simpa [closeWindow, windowValues, hno] using hv
    · nofun
  · have halign := h.window p hp
    obtain ⟨id, time, ht⟩ := ledger_emit c rs p (closeWindow w)
    apply h.commit (e := { p with id := id, time := time }) ⟨halign.ascending, halign.values, halign.reasons⟩ ht
    · rw [emit_control.pending]
      rfl
    intro i
    rw [hp]
    rfl

section
variable (h : Owing (fun i => changeValues i e) w)
include h

lemma owing_hold (he : Aligned e) (hd : ∀ p ∈ w.st.pending, ∀ m ∈ e.members, m ∉ p.members) :
    Owing (fun _ => []) (hold c rs e w) := by
  unfold hold
  split
  next p hp =>
    obtain ⟨ha, hv⟩ := merge_spec (h.window p hp) he (hd p hp)
    refine ⟨?_, h.aligned, ?_⟩
    · intro i
      have hval := h.values i
      rw [hp] at hval
      simpa [withPending, windowValues, hv i] using hval
    intro q hq
    obtain rfl := some_inj.mp hq
    exact ha
  next hp =>
    split
    · exact owing_emit h he hp
    next w' hw' =>
    obtain ⟨ha, hv⟩ := merge_spec (e := {}) ⟨.nil, rfl, rfl⟩ he (by simp)
    rw [spawn_eq hw']
    refine ⟨?_, h.aligned, ?_⟩
    · intro i
      have hval := h.values i
      have hfst : changeValues i (({} : ReportEntry).merge e) = changeValues i e := hv i
      rw [hp] at hval
      simpa [withPending, windowValues, hfst] using hval
    intro q hq
    obtain rfl := some_inj.mp hq
    exact ha

lemma owing_event (he : Aligned e) (hb : w.st.pending.isSome → bufTmOf w.model rs ≠ 0) :
    Owing (fun _ => []) (event c rs e w) := by
  unfold event
  split
  next hz =>
    apply owing_emit h he
    cases hp : w.st.pending with
    | none => rfl
    | some p => exact absurd hz (hb (by simp [hp]))
  split
  · -- The window goes first, and the entry finds none open.
    apply owing_hold (owing_flushPending h) he
    intro p hp
    rw [flushPending_pending] at hp
    cases hp
  next hover =>
    apply owing_hold h he
    intro p hp
    apply not_mem_of_not_overlaps
    rw [hp] at hover
    simpa using hover

end

lemma owing_onUpdateBlock (h : Owing (fun _ => []) w) (hb : w.st.pending.isSome → bufTmOf w.model rs ≠ 0) :
    Owing (fun _ => []) (onUpdateBlock c changes rs w) := by
  unfold onUpdateBlock
  split
  · exact h
  split
  · exact h
  dsimp only
  split
  · exact h
  refine owing_event ⟨?_, ?_, h.window⟩ aligned_collect hb
  · intro i
    have hv := h.values i
    simp only [note, capturedValues, committedValues, flatMap_append] at hv ⊢
    rw [hv, changeValues_collect_wanted]
    simp [capturedBy, committedBy]
  intro e he
  apply h.aligned
  simpa [note] using he

lemma owing_reportAll {reason : ReasonCode} (hr : reason &&& changeTriggers = 0)
    (h : Owing (fun _ => []) w) : Owing (fun _ => []) (reportAll c rs reason w) := by
  have hf : Owing (fun _ => []) (flushPending c rs w) := owing_flushPending h
  dsimp only [reportAll]
  split
  · exact hf
  have hall : Owing (fun i => changeValues i (everyMember c rs reason (flushPending c rs w)))
      (flushPending c rs w) := by
    have hno : (fun i => changeValues i (everyMember c rs reason (flushPending c rs w))) =
        fun _ => [] := by
      funext i
      exact changeValues_collect_all hr i
    rw [hno]
    exact hf
  exact owing_emit hall aligned_collect flushPending_pending

variable {conn : ConnId} {ip : Option IpAddr}

section
variable (h : Owing owed w)
include h

lemma Owing.reserves (hr : Reserves rs w w') : Owing owed w' := by
  obtain ⟨_, _, _, _, _, _, _, -, rfl⟩ := hr
  exact h.of_ledger rfl rfl

lemma owing_deliver : Owing owed (deliver c rs w) := by
  have hr : (resume w.st).pending = w.st.pending := (resume_control w.st).pending
  unfold deliver
  split
  · apply h.of_ledger
    · rw [transmitBuffered, ledger_transmitFrom]
    · rw [transmitBuffered, (transmitFrom_control _ _ _ _).pending]
      exact hr
  · exact h

lemma owing_enable : Owing owed (enable c rs conn ip w) := by
  obtain ⟨_, _, _, _, hst⟩ := prepared_st rs conn ip w
  have hp : Owing owed (prepared rs conn ip w) := by
    apply h.of_ledger
    · rw [prepared_trace]
      simp [ledger, isLedger]
    · rw [hst]
  exact (owing_deliver hp).reserves .startIntegrity

lemma owing_disable : Owing owed (disable c rs w) := by
  have hu : Owing owed (unsubscribe (flushPending c rs w)) := (owing_flushPending h).of_ledger rfl rfl
  unfold disable
  split
  · exact hu.reserves .release
  · exact hu

lemma owing_disableConnBlock : Owing owed (disableConnBlock c conn rs w) :=
  disableConnBlock_rule (fun _ => h) (fun _ => owing_disable h) fun _ h => h.reserves .release

lemma owing_purgeBlock : Owing owed (purgeBlock w) := by
  apply h.of_ledger
  · simp [purgeBlock, note, ledger, isLedger]
  · rfl

end

lemma owing_write {attr : String} : WriteRule c attr v conn ip rs (Owing fun _ => []) (Owing fun _ => []) where
  task h := h.of_ledger rfl rfl
  taken h _ := h.reserves .take
  reserved h _ := h.reserves .take
  released h _ _ := h.reserves .release
  idle h _ _ := h
  stopped h := h.of_ledger rfl rfl
  enabled h _ _ := owing_enable h
  disabled h _ := owing_disable h
  reported h := owing_reportAll (by decide) h
  purged h _ := owing_purgeBlock h
  answered h _ := h.of_ledger rfl rfl
  resynced h := h.of_ledger (by simp [note, ledger, isLedger]) rfl
  revised h _ := h.of_ledger rfl rfl

variable {generation : ℕ}

lemma owing_windowTask (h : Owing owed w) : Owing owed (windowTask c generation rs w) := by
  unfold windowTask
  split
  · exact owing_flushPending h
  · exact h

lemma owing_integrityTask (h : Owing (fun _ => []) w) : Owing (fun _ => []) (integrityTask c generation rs w) := by
  unfold integrityTask
  split
  · exact h
  · exact owing_reportAll (by decide) h

/-- No update writes to a block while its window is open, nor finds it open with a `BufTm` of zero. -/
def KeepsPace (s : State) : Step → Prop
  | .update sets _ _ => ∀ b ∈ s.blocks, b.st.pending.isSome = true →
    bufTmOf s.model b.rs ≠ 0 ∧ ∀ a ∈ sets, assignSite a.1 ≠ some b.rs.path
  | .reportWritten _ _ => ∀ b ∈ s.blocks, b.st.pending.isSome = true → bufTmOf s.model b.rs ≠ 0
  | _ => True

instance (s : State) (x : Step) : Decidable (KeepsPace s x) := by
  apply @Step.casesOn (fun x => Decidable (KeepsPace s x)) x <;> intros <;> dsimp only [KeepsPace] <;> infer_instance

variable {cfg : Config} {s : State} {x : Step}

/-- The values of a block are in order; this is about the block alone. -/
def InOrderIn (g : Engine) (b : Block) : Prop := Owing (fun _ => []) (b.work g)

lemma InOrderIn.any {g : Engine} {b : Block} (h : InOrderIn g b) (g' : Engine) : InOrderIn g' b :=
  h.of_ledger rfl rfl

lemma inOrderIn_undisturbed : Undisturbed anyTwo InOrderIn :=
  ⟨fun _ g' _ _ h => h.any g', fun _ _ _ w' _ _ _ h => h.any w'.toEngine⟩

lemma inOrder_update (hb : ∀ b ∈ s.blocks, b.st.pending.isSome → bufTmOf s.model b.rs ≠ 0)
    (h : ∀ b ∈ s.blocks, InOrderIn s.toEngine b) :
    let s' := s.onBlocks (onUpdateBlock c changes)
    ∀ b ∈ s'.blocks, InOrderIn s'.toEngine b := by
  -- A block keeps its buffer time until its turn.
  have hall := runBlocks_forall (f := onUpdateBlock c changes)
    (fun g b => InOrderIn g b ∧ (b.st.pending.isSome → bufTmOf g.model b.rs ≠ 0))
    InOrderIn ?_ ?_ ?_ s.blocks s.toEngine (anyTwo_pairwise _)
    (fun b hm => ⟨h b hm, hb b hm⟩)
  · exact hall
  · rintro b g ⟨hp, hbuf⟩
    exact owing_onUpdateBlock hp hbuf
  · rintro b b' g _ ⟨hp, hbuf⟩
    refine ⟨hp.any _, ?_⟩
    intro hpend
    have hfr : Frame emittedAttrs b.rs (b.work g) (onUpdateBlock c changes b.rs (b.work g)) := onUpdateBlock_frame
    rw [bufTmOf, hfr.model.attrValue_any (by decide)]
    exact hbuf hpend
  · intro b b' g _ hp
    exact hp.any _

lemma inOrder_step (hx : KeepsPace s x) (h : ∀ b ∈ s.blocks, InOrderIn s.toEngine b) :
    ∀ b ∈ (step cfg s x).blocks, InOrderIn (step cfg s x).toEngine b := by
  have hany {g : Engine} (b : Block) (hb : b ∈ s.blocks) : InOrderIn g b := (h b hb).any g
  have hu := inOrderIn_undisturbed
  have hone {st : State} {key : String} {f : RcbState → Work → Work} (hk : Keeps InOrderIn f)
      (hf : ∀ rs w, Frame servedAttrs rs w (f rs w)) (hb : st.blocks = s.blocks) :
      ∀ b ∈ (st.onBlock key f).blocks, InOrderIn (st.onBlock key f).toEngine b :=
    onBlock_keeps hu hf hk (anyTwo_pairwise _) (hb ▸ hany)
  refine step_rule ?_ (fun _ => h) (fun _ _ _ => hany) ?_
  · intro hq
    rw [(step_quiet cfg s hq).1]
    exact hany
  intro st f hd
  cases hd with
  | write hw => exact hone (fun b g hp => owing_write.onRcbWrite hp) (fun _ _ => onRcbWrite_frame) rfl
  | written => exact inOrder_update hx h
  | update =>
    refine inOrder_update ?_ hany
    intro b hb hpend
    obtain ⟨hbuf, hsets⟩ := hx b hb hpend
    rw [bufTmOf, (beside_setAll cfg.render { model := s.model } hsets).attrValue]
    exact hbuf
  | window =>
    exact hone (fun b g h => owing_windowTask h) (fun _ _ => windowTask_frame) rfl
  | reservation =>
    exact hone (fun b g h => h.reserves .reservationTask) (fun _ _ => reservationTask_frame) rfl
  | integrity =>
    exact hone (fun b g h => owing_integrityTask h) (fun _ _ => integrityTask_frame) rfl
  | ended =>
    exact onBlocks_forall hu hu (fun _ _ => disableConnBlock_frame)
      (fun b g hp => owing_disableConnBlock hp) (anyTwo_pairwise _) hany

/-- In every run in which no change is reported to a block whose window is open while its buffer time
reads zero: the values committed for the changes of a member are those captured at the updates, in their
order and each once, up to those that wait in the window; and the members of every committed entry ascend,
with a value and a reason each. -/
theorem values_in_order {cfg : Config} {m : Model} {bufDefault : ℕ} {runtime : Bool} {s : State}
    {steps : List Step} (hs : Started m bufDefault runtime s) (hm : Admitted cfg KeepsPace s steps) :
    ∀ b ∈ (run cfg s steps).blocks, InOrder b.st b.trace := by
  have hinv : ∀ b ∈ (run cfg s steps).blocks, InOrderIn (run cfg s steps).toEngine b := by
    refine run_induction (fun s => ∀ b ∈ s.blocks, InOrderIn s.toEngine b) ?_ ?_ hm
    · intro s x h hx
      exact inOrder_step hx h
    intro b hb
    obtain ⟨hmat, htr⟩ := hs.block hb
    obtain ⟨ip, hst⟩ := hmat.fresh
    refine ⟨?_, ?_, ?_⟩
    · intro i
      simp [Block.work, hst, htr, capturedValues, committedValues, windowValues]
    · intro e he
      simp [Block.work, htr] at he
    · intro p hp
      simp [Block.work, hst] at hp
  intro b hb
  exact owing_nil.mp (hinv b hb)

def changingTwice (zero : Bool) : List Step :=
  [setStVal true, .connect none 0] ++
    (if zero then writeRequest "LLN0$BR$b01$BufTm" (.uint32 0) else []) ++ [setStVal false]

/-- Both changes are captured and stay in order. -/
theorem values_in_order_windowed :
    ∃ b ∈ (run sampleConfig (start (sampleModel windowedBlock) 0 true) (changingTwice false)).blocks,
      (capturedValues 0 b.trace).map Value.asBool = [true, false] ∧ InOrder b.st b.trace := by
  have hrun : ∃ b ∈ (run sampleConfig (start (sampleModel windowedBlock) 0 true)
      (changingTwice false)).blocks,
      (capturedValues 0 b.trace).map Value.asBool = [true, false] := by decide +kernel
  obtain ⟨b, hb, hcap⟩ := hrun
  exact ⟨b, hb, hcap, values_in_order (started_start _ 0 true) (by decide +kernel) b hb⟩

/-- With the buffer time at zero the second change overtakes the first, which waits in the window. -/
theorem value_overtakes_window :
    ∃ b ∈ (run sampleConfig (start (sampleModel windowedBlock) 0 true) (changingTwice true)).blocks,
      ¬ InOrder b.st b.trace := by
  have hrun : ∃ b ∈ (run sampleConfig (start (sampleModel windowedBlock) 0 true)
      (changingTwice true)).blocks,
      (capturedValues 0 b.trace).map Value.asBool = [true, false] ∧
      (committedValues 0 b.trace ++ windowValues 0 b.st.pending).map Value.asBool = [false, true] := by
    decide +kernel
  obtain ⟨b, hb, hcap, hcom⟩ := hrun
  refine ⟨b, hb, ?_⟩
  intro h
  rw [h.values 0, hcom] at hcap
  cases hcap

end Iec61850.Server
