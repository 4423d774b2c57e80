import Iec61850.ServerStart

/-! Who holds a block over whole runs of a server, and what a client reads of its runtime state. -/
namespace Iec61850.Server
open Mms RcbRuntime

structure Admits (st : RcbRuntime) (attr : String) (v : Value) (conn : ConnId) (ip : Option IpAddr) :
    Prop where
  allowed : st.allowed conn ip = true
  maintained : attr ∉ rcbReadOnly
  enabling : attr = "RptEna" → v.asBool = true → st.enabled = false
  releasing : attr = "Resv" → v.asBool = false → st.resvCfg = false ∧ st.enabled = false
  settings : attr ∈ rcbSettings → st.enabled = false

lemma ok_of_ite_error {ε α : Type} {p : Prop} [Decidable p] {e : ε} {x : Except ε α} {a : α}
    (h : (if p then .error e else x) = .ok a) : ¬ p ∧ x = .ok a := by
  by_cases hp : p
  · rw [if_pos hp] at h
    cases h
  · rw [if_neg hp] at h
    exact ⟨hp, h⟩

lemma admits_of_check {c : Ctx} {m : Model} {rs : RcbState} {st : RcbRuntime} {attr : String}
    {v : Value} {conn : ConnId} {ip : Option IpAddr}
    (h : checkRcbWrite c m rs st attr v conn ip = .ok ()) : Admits st attr v conn ip := by
  obtain ⟨hallowed, h⟩ := ok_of_ite_error h
  obtain ⟨hro, h⟩ := ok_of_ite_error h
  have hal : st.allowed conn ip := by simpa using hallowed
  by_cases hena : attr = "RptEna" ∧ v.asBool
  · -- A request to enable the block is none of the others.
    rw [if_pos hena] at h
    obtain ⟨hen, -⟩ := ok_of_ite_error h
    have hen : st.enabled = false := by simpa using hen
    refine ⟨hal, hro, fun _ _ => hen, ?_, fun _ => hen⟩
    intro ha
    rw [hena.1] at ha
    exact absurd ha (by decide)
  rw [if_neg hena] at h
  obtain ⟨-, h⟩ := ok_of_ite_error h
  obtain ⟨hcfg, h⟩ := ok_of_ite_error h
  obtain ⟨hresv, h⟩ := ok_of_ite_error h
  obtain ⟨-, h⟩ := ok_of_ite_error h
  obtain ⟨-, h⟩ := ok_of_ite_error h
  refine ⟨hal, hro, fun ha hv => absurd ⟨ha, hv⟩ hena, ?_, ?_⟩
  · intro ha hv
    exact ⟨by simpa [ha, hv] using hcfg, by simpa [ha, hv] using hresv⟩
  intro hset
  rw [if_pos hset] at h
  obtain ⟨hen, -⟩ := ok_of_ite_error h
  simpa using hen

/-- An enabled block reports to its holder, another to nobody, and the holder is one of the associations `K`.
-/
structure Held (K : ConnId → Prop) (st : RcbRuntime) : Prop where
  subscriber : st.conn = if st.enabled = true then st.owner else none
  owned : st.enabled = true → st.owner.isSome = true
  known : ∀ conn, st.owner = some conn → K conn

variable {K : ConnId → Prop} {st st' : RcbRuntime} {c : Ctx} {rs : RcbState} {w : Work} {conn : ConnId}
  {ip : Option IpAddr} {attr : String} {v : Value} {generation : ℕ}

lemma Held.of_eq (h : Held K st) (he : st'.enabled = st.enabled) (hc : st'.conn = st.conn)
    (ho : st'.owner = st.owner) : Held K st' := by
  refine ⟨?_, ?_, ?_⟩
  · rw [hc, he, ho]
    exact h.subscriber
  · rw [he, ho]
    exact h.owned
  · rw [ho]
    exact h.known

lemma Held.of_control (h : Held K st) (hc : SameControl st st') : Held K st' :=
  h.of_eq hc.enabled hc.conn hc.owner

lemma Held.mono {K' : ConnId → Prop} (h : Held K st) (hk : ∀ conn, K conn → K' conn) : Held K' st :=
  ⟨h.subscriber, h.owned, fun conn ho => hk conn (h.known conn ho)⟩

lemma Held.of_disabled (he : st.enabled = false) (hc : st.conn = none)
    (hk : ∀ conn, st.owner = some conn → K conn) : Held K st := by
  refine ⟨?_, ?_, hk⟩
  · rw [hc, he]
    rfl
  rw [he]
  intro h
  cases h

lemma Held.owner_of_allowed (h : Held K st) (ha : st.allowed conn ip) (he : st.enabled) : st.owner = some conn := by
  obtain ⟨o, ho⟩ := Option.isSome_iff_exists.mp (h.owned he)
  rw [allowed, ho] at ha
  rw [ho, show o = conn by simpa using ha]

lemma held_take (h : Held K w.st) (hk : K conn) (he : w.st.enabled → w.st.owner = some conn) :
    Held K (take rs conn ip w).st := by
  rw [take_st]
  refine ⟨?_, fun _ => rfl, ?_⟩
  · have hs := h.subscriber
    split at hs
    next hen =>
      rw [he hen] at hs
      simp [hs, hen]
    · next hen => simp [hs, hen]
  intro conn' ho
  obtain rfl : conn = conn' := by simpa using ho
  exact hk

lemma release_owner : (release c rs w).st.owner = none := by
  rw [release_st]
  split <;> rfl

lemma held_release (hc : w.st.conn = none) (he : w.st.enabled = false) : Held K (release c rs w).st := by
  apply Held.of_disabled
  · rw [release_enabled_conn.1, he]
  · rw [release_enabled_conn.2, hc]
  intro conn ho
  rw [release_owner] at ho
  cases ho

lemma Held.conn_of_disabled (h : Held K st) (he : st.enabled = false) : st.conn = none := by
  rw [h.subscriber, he]
  rfl

lemma prepared_owner : (prepared rs conn ip w).st.owner = some conn := by
  dsimp only [prepared]
  split
  · simp only [setSqNum, take_st, stopIntegrity]
  next h =>
    have ho : w.st.owner = some conn := by simpa [subscribe, note] using h
    simp [setSqNum, stopIntegrity, subscribe, note, ho]

lemma held_enable (hk : K conn) : Held K (enable c rs conn ip w).st := by
  obtain ⟨id, hd⟩ := deliver_control c rs (prepared rs conn ip w)
  obtain ⟨_, _, _, _, hst⟩ := prepared_st rs conn ip w
  have hp : Held K (prepared rs conn ip w).st := by
    refine ⟨?_, ?_, ?_⟩
    · rw [prepared_owner, hst]
      rfl
    · intro _
      rw [prepared_owner]
      rfl
    intro conn' ho
    rw [prepared_owner] at ho
    obtain rfl : conn = conn' := by simpa using ho
    exact hk
  rw [enable_eq, startIntegrity_st]
  exact hp.of_eq hd.enabled hd.conn hd.owner

lemma held_disable (h : Held K w.st) : Held K (disable c rs w).st := by
  rw [disable]
  have hf : Held K (flushPending c rs w).st := h.of_control flushPending_control
  split
  · exact held_release rfl rfl
  · exact Held.of_disabled rfl rfl hf.known

lemma held_disableConnBlock (h : Held (fun c => c = conn ∨ K c) w.st) : Held K (disableConnBlock c conn rs w).st := by
  -- What is left when the association is no longer the holder.
  have hrs {st : RcbRuntime} (h : Held (fun c => c = conn ∨ K c) st) (hne : st.owner ≠ some conn) :
      Held K st := by
    refine ⟨h.subscriber, h.owned, ?_⟩
    intro conn' ho
    rcases h.known conn' ho with rfl | hk
    · exact absurd ho hne
    · exact hk
  rw [disableConnBlock]
  split
  · have hd : Held (fun c => c = conn ∨ K c) (disable c rs w).st := held_disable h
    have he : (disable c rs w).st.enabled = false := by
      rw [disable]
      split
      · exact release_enabled_conn.1
      · rfl
    split
    · exact held_release (hd.conn_of_disabled he) he
    · next hne => exact hrs hd hne
  next hc =>
    split
    next ho =>
      -- A block that its holder does not subscribe is not enabled.
      have he : w.st.enabled = false := by
        by_contra hen
        rw [Bool.not_eq_false] at hen
        apply hc
        rw [h.subscriber, if_pos hen, ho]
      exact held_release (h.conn_of_disabled he) he
    · next hne => exact hrs h hne

lemma held_onRcbWrite (h : Held K w.st) (hk : K conn) (ha : Admits w.st attr v conn ip) :
    Held K (onRcbWrite c attr v conn ip rs w).st := by
  have hr : WriteRule c attr v conn ip rs
      (fun w => Held K w.st ∧ (w.st.enabled → w.st.owner = some conn) ∧
        (attr = "Resv" → v.asBool = false → w.st.enabled = false)) (fun w => Held K w.st) :=
    { task := id
      taken := fun h hne => ⟨held_take h.1 hk h.2.1, fun _ => by rw [take_st], fun heq => absurd heq hne⟩
      reserved := fun h _ => held_take h.1 hk h.2.1
      released := fun h heq hv => held_release (h.1.conn_of_disabled (h.2.2 heq hv)) (h.2.2 heq hv)
      idle := fun h _ _ => h.1
      stopped := fun h => h.of_eq rfl rfl rfl
      enabled := fun _ _ _ => held_enable hk
      disabled := fun h _ => held_disable h.1
      reported := fun h => h.of_control reportAll_control
      purged := fun h _ => h.1.of_eq rfl rfl rfl
      answered := fun h _ => h
      resynced := fun h => h.of_eq rfl rfl rfl
      revised := fun h _ => h }
  exact hr.onRcbWrite ⟨h, h.owner_of_allowed ha.allowed, fun heq hv => (ha.releasing heq hv).2⟩

lemma held_reservationTask (h : Held K w.st) : Held K (reservationTask generation rs w).st := by
  rw [reservationTask]
  split
  · rw [syncResv_st]
    exact h.of_eq rfl rfl rfl
  · exact h

def holderIp (st : RcbRuntime) : Option IpAddr := if st.owner.isSome then st.ownerIp else st.resvIp

/-- The attributes show the reservation: `Resv` of an unbuffered block whether it is owned or held, `Owner` of
a buffered one the holder's address. -/
def Reflected (m : Model) (rs : RcbState) (st : RcbRuntime) : Prop :=
  if rs.buffered then attrValue m rs "Owner" = some (.octetString (ipOctets (holderIp st)))
  else attrValue m rs "Resv" = some (.boolean (st.owner.isSome || st.resvIp.isSome))

variable {m m' : Model} {w' : Work}

lemma Reflected.of_eq (h : Reflected m rs st)
    (hat : ∀ n ∈ reservedAttrs, attrValue m' rs n = attrValue m rs n) (ho : st'.owner = st.owner)
    (hi : st'.ownerIp = st.ownerIp) (hr : st'.resvIp = st.resvIp) : Reflected m' rs st' := by
  rw [Reflected, hat "Owner" (by decide), hat "Resv" (by decide), holderIp, ho, hi, hr]
  exact h

lemma Reflected.of_control (h : Reflected w.model rs w.st) (hf : Frame emittedAttrs rs w w')
    (hc : SameControl w.st w'.st) : Reflected w'.model rs w'.st := by
  apply h.of_eq _ hc.owner hc.ownerIp hc.resvIp
  intro n hn
  apply hf.model.attr
  intro hn'
  revert n
  decide

lemma Reflected.setAttr (h : Reflected m rs st) (ha : attr ∉ reservedAttrs) (v : Value) :
    Reflected (setAttr m rs attr v) rs st := by
  refine h.of_eq ?_ rfl rfl rfl
  intro n hn
  apply attrValue_setAttr_ne
  rintro rfl
  exact ha hn

section
variable (hs : Shaped w.model rs)
include hs

lemma reflected_syncResv : Reflected (syncResv rs w).model rs (syncResv rs w).st := by
  cases hb : rs.buffered with
  | true =>
    have hat : HasAttr w.model rs "Owner" := hs.hasAttr (by simp [rcbAttributes, hb])
    simp only [Reflected, syncResv, hb, if_true]
    exact attrValue_setAttr_same w.model rs _ hat
  | false =>
    have hat : HasAttr w.model rs "Resv" := hs.hasAttr (by simp [rcbAttributes, hb])
    simp only [Reflected, syncResv, hb, Bool.false_eq_true, if_false]
    exact attrValue_setAttr_same w.model rs _ hat

lemma reflected_take : Reflected (take rs conn ip w).model rs (take rs conn ip w).st := by
  apply reflected_syncResv
  exact hs

lemma reflected_release : Reflected (release c rs w).model rs (release c rs w).st := by
  have hhold (ip : IpAddr) (w : Work) (hs : Shaped w.model rs) : Shaped (holdFor c rs ip w).model rs :=
    (Reserves.spawned _).frame.model.shaped hs
  dsimp only [release]
  split
  · exact reflected_syncResv hs
  split
  · split
    · exact reflected_syncResv hs
    · exact reflected_syncResv (hhold _ _ hs)
  · exact reflected_syncResv hs

section
variable (h : Reflected w.model rs w.st)
include h

lemma reflected_enable : Reflected (enable c rs conn ip w).model rs (enable c rs conn ip w).st := by
  have hp : Reflected (prepared rs conn ip w).model rs (prepared rs conn ip w).st := by
    dsimp only [prepared]
    split
    · exact ((reflected_take (w := subscribe conn w) hs).setAttr (by decide) _).of_eq (fun _ _ => rfl) rfl rfl rfl
    · exact (h.setAttr (by decide) _).of_eq (fun _ _ => rfl) rfl rfl rfl
  obtain ⟨id, hd⟩ := deliver_control c rs (prepared rs conn ip w)
  rw [enable_eq, startIntegrity_st]
  refine hp.of_eq ?_ hd.owner hd.ownerIp hd.resvIp
  intro n hn
  rw [startIntegrity_frame.model.attr n List.not_mem_nil]
  apply deliver_frame.model.attr
  intro hn'
  revert n
  decide

lemma reflected_disable : Reflected (disable c rs w).model rs (disable c rs w).st := by
  rw [disable]
  split
  · exact reflected_release (flushPending_frame.model.shaped hs)
  · exact (h.of_control flushPending_frame flushPending_control).of_eq (fun _ _ => rfl) rfl rfl rfl

lemma reflected_disableConnBlock :
    Reflected (disableConnBlock c conn rs w).model rs (disableConnBlock c conn rs w).st := by
  rw [disableConnBlock]
  split
  · split
    · exact reflected_release (disable_frame.model.shaped hs)
    · exact reflected_disable hs h
  split
  · exact reflected_release hs
  · exact h

end

end

lemma reflected_write : WriteRule c attr v conn ip rs
    (fun w => Shaped w.model rs ∧ (attr ≠ "Resv" → Reflected w.model rs w.st))
    (fun w => Reflected w.model rs w.st) where
  task := id
  taken h _ := ⟨take_frame.model.shaped h.1, fun _ => reflected_take h.1⟩
  reserved h _ := reflected_take h.1
  released h _ _ := reflected_release h.1
  idle h hne _ := h.2 hne
  stopped h := h.of_eq (fun _ _ => rfl) rfl rfl rfl
  enabled h heq _ := reflected_enable h.1 (h.2 (by simp [heq]))
  disabled h heq := reflected_disable h.1 (h.2 (by simp [heq]))
  reported h := h.of_control reportAll_frame reportAll_control
  purged h hp := (h.2 (by rintro rfl; cases hp)).of_eq (fun _ _ => rfl) rfl rfl rfl
  answered h ha := h.setAttr (by rcases ha with rfl | rfl <;> decide) _
  resynced h := h.of_eq (fun _ _ => rfl) rfl rfl rfl
  revised h _ := ⟨shaped_setAttr _ _ _ h.1, fun hne => (h.2 hne).setAttr (by decide) _⟩

lemma reflected_onRcbWrite (hs : Shaped w.model rs) (h : attr ≠ "Resv" → Reflected w.model rs w.st) :
    Reflected (onRcbWrite c attr v conn ip rs w).model rs (onRcbWrite c attr v conn ip rs w).st :=
  reflected_write.onRcbWrite ⟨hs, h⟩

lemma reflected_reservationTask (hs : Shaped w.model rs) (h : Reflected w.model rs w.st) :
    Reflected (reservationTask generation rs w).model rs (reservationTask generation rs w).st := by
  rw [reservationTask]
  split
  · exact reflected_syncResv hs
  · exact h

open Engine List AList Reflected

/-- An enabled block is owned by the association it reports to; another reports to nobody. -/
def OwnedBySubscriber (st : RcbRuntime) : Prop :=
  if st.enabled then ∃ conn, st.conn = some conn ∧ st.owner = some conn else st.conn = none

/-- An association has ended in a run: it was there, handled no request, and its end was a step. -/
def Ended (cfg : Config) (s : State) (steps : List Step) (conn : ConnId) : Prop :=
  ∃ before now after sc, steps = before ++ .endAssociation conn now :: after ∧
    (run cfg s before).conns.lookup conn = some sc ∧ sc.inRequest = false

/-- Another one owns the block, or nobody does and it is held for another address. -/
def Stranger (st : RcbRuntime) (conn : ConnId) (ip : Option IpAddr) : Prop :=
  st.owner ≠ some conn ∧ (st.owner.isSome = true ∨ st.resvIp.isSome = true ∧ st.resvIp ≠ ip)
deriving Decidable

/-- A step leaves the attributes and the runtime state of a block. -/
def Untouched (b : Block) (s s' : State) : Prop :=
  b ∈ s'.blocks ∧ s'.model.object b.rs.domain b.rs.lnName b.rs.objectName =
    s.model.object b.rs.domain b.rs.lnName b.rs.objectName

variable {cfg : Config} {s : State} {x : Step}

def Engine.Has (g : Engine) (conn : ConnId) : Prop := (g.conns.lookup conn).isSome = true

def HeldIn (g : Engine) (b : Block) : Prop := Held g.Has b.st

lemma heldIn_undisturbed : Undisturbed anyTwo HeldIn := by
  refine ⟨?_, ?_⟩
  · intro g g' b ha h
    exact h.mono ha.conns
  intro names rs w w' b hf _ h
  apply h.mono
  intro conn hc
  rw [Has, hf.conns]
  exact hc

lemma Held.after {names : List String} {rs : RcbState} {w w' : Work} {st : RcbRuntime}
    (h : Held w.Has st) (hf : Frame names rs w w') : Held w'.Has st := by
  apply h.mono
  intro conn hc
  rw [Has, hf.conns]
  exact hc

lemma heldIn_rule (cfg : Config) : BlockRule anyTwo anyChange cfg HeldIn where
  undisturbed := heldIn_undisturbed
  beside _ _ _ _ h := h
  update _ _ _ b g h := (h.of_control (onUpdateBlock_control (w := b.work g))).after onUpdateBlock_frame
  window _ _ b g h := (h.of_control (windowTask_control (w := b.work g))).after windowTask_frame
  reservation _ b g h := (held_reservationTask (w := b.work g) h).after reservationTask_frame
  integrity _ _ b g h := (h.of_control (integrityTask_control (w := b.work g))).after integrityTask_frame

lemma heldIn_endAssociation {conn : ConnId} {now : SystemTime} (h : ∀ b ∈ s.blocks, HeldIn s.toEngine b) :
    let s' := ({ s with conns := s.conns.erase conn, changes := s.changes.erase conn } : State).onBlocks
      (disableConnBlock (cfg.ctx now true) conn)
    ∀ b ∈ s'.blocks, HeldIn s'.toEngine b := by
  -- Until its turn a block may still be owned by the association, which has left the table.
  have hpre : Undisturbed anyTwo fun g b => Held (fun c => c = conn ∨ g.Has c) b.st := by
    refine ⟨?_, ?_⟩
    · intro g g' b ha h
      exact h.mono fun c hc => hc.imp_right (ha.conns c)
    intro names rs w w' b hf _ h
    apply h.mono
    intro c hc
    rw [Has, hf.conns]
    exact hc
  refine onBlocks_forall hpre heldIn_undisturbed (fun _ _ => disableConnBlock_frame) ?_ (anyTwo_pairwise _) ?_
  · intro b g h
    exact (held_disableConnBlock h).after disableConnBlock_frame
  intro b hb
  apply (h b hb).mono
  intro c hc
  by_cases hcc : c = conn
  · exact .inl hcc
  refine .inr ?_
  rw [Has, lookup_erase_ne hcc]
  exact hc

lemma heldIn_step (hn : (s.blocks.map fun b => b.rs.key).Nodup) (h : ∀ b ∈ s.blocks, HeldIn s.toEngine b) :
    ∀ b ∈ (step cfg s x).blocks, HeldIn (step cfg s x).toEngine b := by
  refine step_forall (heldIn_rule cfg) (anyTwo_pairwise _) hn (fun _ _ _ _ => trivial) ?_ ?_ h
  · intro b attr v conn now m hw
    refine ⟨fun _ _ _ => trivial, ?_⟩
    have hheld : Held (b.written s m).Has
        (onRcbWrite (cfg.ctx now true) attr v conn (s.ipOf conn) b.rs (b.written s m)).st :=
      held_onRcbWrite (h b hw.mem) hw.known (admits_of_check hw.check)
    exact hheld.after onRcbWrite_frame
  · intro conn now sc _ _
    exact heldIn_endAssociation h

variable {s' : State} {f : RcbState → Work → Work} {conn : ConnId}

/-- Associations only join under the next number, and numbers only grow. -/
structure Joins (s s' : State) : Prop where
  next : s.nextConn ≤ s'.nextConn
  conns : ∀ conn, s'.Has conn → s.Has conn ∨ conn = s.nextConn ∧ s.nextConn < s'.nextConn

lemma Joins.of_has (hn : s'.nextConn = s.nextConn) (hc : ∀ conn, s'.Has conn → s.Has conn) :
    Joins s s' := ⟨Nat.le_of_eq hn.symm, fun conn h => Or.inl (hc conn h)⟩

lemma joins_insert {sc sc' : ServerConn} (hsc : s.conns.lookup conn = some sc)
    (hn : s'.nextConn = s.nextConn) (hc : s'.conns = s.conns.insert conn sc') : Joins s s' := by
  apply Joins.of_has hn
  intro conn' h
  rw [Has, hc] at h
  by_cases hcc : conn' = conn
  · rw [Has, hcc, hsc]
    rfl
  · rw [lookup_insert_ne hcc] at h
    exact h

lemma Joins.onBlocks (h : Joins s s') (hfr : ∀ rs w, Frame servedAttrs rs w (f rs w)) :
    Joins s (s'.onBlocks f) := by
  have hbs (conn : ConnId) (bs : List Block) (g : Engine) (h : (runBlocks f bs g).1.Has conn) :
      g.Has conn := by
    induction bs generalizing g with
    | nil => exact h
    | cons b rest ih =>
      have hb := ih _ h
      rw [Has, (hfr b.rs (b.work g)).conns] at hb
      exact hb
  exact ⟨h.next, fun conn hc => h.conns conn (hbs conn s'.blocks s'.toEngine hc)⟩

lemma joins_step (cfg : Config) (s : State) (x : Step) : Joins s (step cfg s x) := by
  have hsm {s' : State} (hn : s'.nextConn = s.nextConn) (hc : s'.conns = s.conns) : Joins s s' :=
    .of_has hn fun conn h => by rwa [Has, hc] at h
  refine step_rule ?_ (fun _ => hsm rfl rfl) (fun _ _ _ => hsm rfl rfl) ?_
  · intro hq
    cases x with
    | connect peer maxPdu =>
      refine ⟨Nat.le_succ _, ?_⟩
      intro conn h
      by_cases hcc : conn = s.nextConn
      · exact .inr ⟨hcc, Nat.lt_succ_self _⟩
      · rw [step, Has, lookup_insert_ne hcc] at h
        exact .inl h
    | beginRequest | drain | stall =>
      rw [step]
      split
      · exact hsm rfl rfl
      · next sc hsc => exact joins_insert hsc rfl rfl
    | endRequest conn answered =>
      rw [step]
      split
      · exact hsm rfl rfl
      next sc hsc =>
      dsimp only [endRequest]
      split
      · obtain ⟨_, hq⟩ := queueHeld_state conn sc.after s { sc with inRequest := false, after := [] }
        rw [hq]
        exact joins_insert hsc rfl rfl
      · exact joins_insert hsc rfl rfl
    | journal => exact hsm rfl rfl
    | _ => cases hq
  · intro st f hd
    refine Joins.onBlocks ?_ hd.frame
    cases hd with
    | ended =>
      refine .of_has rfl ?_
      intro conn' h
      obtain ⟨sc, hsc⟩ := Option.isSome_iff_exists.mp h
      exact Option.isSome_iff_exists.mpr ⟨sc, (Table.lookup_erase_eq_some.mp hsc).2⟩
    | _ => exact hsm rfl rfl

/-- Every association in the table has been given its number. -/
def Issued (s : State) : Prop := ∀ conn, s.Has conn → conn < s.nextConn

lemma issued_step (h : Issued s) : Issued (step cfg s x) := by
  have hj := joins_step cfg s x
  intro conn hc
  rcases hj.conns conn hc with hold | ⟨rfl, hlt⟩
  · exact Nat.lt_of_lt_of_le (h conn hold) hj.next
  · exact hlt

lemma issued_run (h : Issued s) (steps : List Step) : Issued (run cfg s steps) :=
  run_invariant Issued (fun _ _ => issued_step) h steps

variable {steps : List Step}

lemma absent_run (hlt : conn < s.nextConn) (h : ¬ s.Has conn) : ¬ (run cfg s steps).Has conn := by
  induction steps generalizing s with
  | nil => exact h
  | cons x rest ih =>
    have hj := joins_step cfg s x
    refine ih (Nat.lt_of_lt_of_le hlt hj.next) ?_
    intro hc
    rcases hj.conns conn hc with hold | ⟨rfl, -⟩
    · exact h hold
    · exact Nat.lt_irrefl _ hlt

lemma absent_of_ended (hs : Issued s) (h : Ended cfg s steps conn) : ¬ (run cfg s steps).Has conn := by
  obtain ⟨before, now, after, sc, rfl, hsc, hreq⟩ := h
  have hi : Issued (run cfg s before) := issued_run hs before
  have hlt : conn < (run cfg s before).nextConn := hi conn (by rw [Has, hsc]; rfl)
  have hrun : run cfg s (before ++ .endAssociation conn now :: after) =
      run cfg (step cfg (run cfg s before) (.endAssociation conn now)) after := by
    rw [run, foldl_append]
    rfl
  rw [hrun]
  apply absent_run (Nat.lt_of_lt_of_le hlt (joins_step cfg _ _).next)
  rw [step, hsc]
  simp only [hreq, Bool.false_eq_true, if_false]
  -- The association leaves the table, and the work on its blocks does not bring it back.
  have hj : Joins { run cfg s before with
      conns := (run cfg s before).conns.erase conn, changes := (run cfg s before).changes.erase conn }
      (({ run cfg s before with
      conns := (run cfg s before).conns.erase conn
      changes := (run cfg s before).changes.erase conn } : State).onBlocks
        (disableConnBlock (cfg.ctx now true) conn)) :=
    (Joins.of_has rfl fun _ h => h).onBlocks fun _ _ => disableConnBlock_frame
  intro hc
  rcases hj.conns conn hc with hold | ⟨heq, -⟩
  · rw [Has, lookup_erase] at hold
    cases hold
  · exact absurd heq (Nat.ne_of_lt hlt)

variable {m m' : Model} {rs : RcbState} {st : RcbRuntime}

lemma Reflected.of_object (h : Reflected m rs st)
    (ho : m'.object rs.domain rs.lnName rs.objectName = m.object rs.domain rs.lnName rs.objectName) :
    Reflected m' rs st := by
  refine h.of_eq ?_ rfl rfl rfl
  intro n _
  rw [attrValue, ho, attrValue]

/-- A block with its form whose attributes show its reservation. -/
def ReflectedIn (g : Engine) (b : Block) : Prop :=
  Shaped g.model b.rs ∧ Reflected g.model b.rs b.st

lemma reflectedIn_of_object {g g' : Engine} {b : Block} (h : ReflectedIn g b)
    (ho : g'.model.object b.rs.domain b.rs.lnName b.rs.objectName =
      g.model.object b.rs.domain b.rs.lnName b.rs.objectName) : ReflectedIn g' b := by
  refine ⟨?_, h.2.of_object ho⟩
  rw [Shaped, ho]
  exact h.1

lemma reflectedIn_undisturbed : Undisturbed Apart ReflectedIn := by
  refine ⟨?_, ?_⟩
  · intro g g' b ha h
    apply reflectedIn_of_object h
    rw [ha.model]
  · intro names rs w w' b hf hr h
    exact reflectedIn_of_object h (hf.model.other b.rs hr)

lemma reflectedIn_rule (cfg : Config) : BlockRule Apart (Beside cfg.render) cfg ReflectedIn where
  undisturbed := reflectedIn_undisturbed
  beside _ _ _ hb h := reflectedIn_of_object h hb.object
  update _ _ _ _ _ h := ⟨onUpdateBlock_frame.model.shaped h.1,
    of_control h.2 onUpdateBlock_frame onUpdateBlock_control⟩
  window _ _ _ _ h := ⟨windowTask_frame.model.shaped h.1,
    of_control h.2 (frame_events.windowTask .refl) windowTask_control⟩
  reservation _ _ _ h := ⟨reservationTask_frame.model.shaped h.1, reflected_reservationTask h.1 h.2⟩
  integrity _ _ _ _ h := ⟨integrityTask_frame.model.shaped h.1,
    of_control h.2 (frame_events.integrityTask .refl) integrityTask_control⟩

lemma reflectedIn_step (hs : Sited s) (hx : Respects cfg s x) (h : ∀ b ∈ s.blocks, ReflectedIn s.toEngine b) :
    ∀ b ∈ (step cfg s x).blocks, ReflectedIn (step cfg s x).toEngine b := by
  refine step_forall_sited (reflectedIn_rule cfg) hs hx ?_ ?_ h
  · intro b attr v conn now m hw
    have hshp : Shaped (setAttr s.model b.rs attr v) b.rs := shaped_setAttr _ _ _ (h b hw.mem).1
    refine ⟨onRcbWrite_frame.model.shaped hshp, ?_⟩
    refine reflected_onRcbWrite hshp ?_
    -- The write itself stores nothing in `Owner`, which only the server maintains.
    intro hresv
    apply (h b hw.mem).2.setAttr
    have hmain := (admits_of_check hw.check).maintained
    intro hm
    rcases mem_cons.mp hm with rfl | hm
    · exact hmain (by decide)
    · exact hresv (mem_singleton.mp hm)
  intro conn now sc _ _
  refine onBlocks_forall reflectedIn_undisturbed reflectedIn_undisturbed
    (fun _ _ => disableConnBlock_frame) ?_ (pairwise_map.mp hs.placed.apart) h
  intro b g hb
  exact ⟨disableConnBlock_frame.model.shaped hb.1, reflected_disableConnBlock hb.1 hb.2⟩

lemma reflected_start {bufDefault : ℕ} {runtime : Bool} (hw : WellNamed m)
    (h : Started m bufDefault runtime s) {b : Block} (hb : b ∈ s.blocks) : Reflected s.model b.rs b.st := by
  obtain ⟨ldName, lnName, rc, i, name, heq, hobj⟩ := h.object hw hb
  rw [Reflected, attrValue, attrValue, hobj]
  unfold materialiseRcb at heq ⊢
  dsimp only at heq ⊢
  split at heq
  · obtain ⟨hrs, hst⟩ := Prod.mk.inj heq
    rw [← hrs, ← hst]
    cases hbuf : rc.buffered <;>
      simp [buildRcbObject, reserveAttributes, hbuf, DataObject.attr, holderIp]
  obtain ⟨hrs, hst⟩ := Prod.mk.inj heq
  rw [← hrs, ← hst]
  dsimp only
  cases hbuf : rc.buffered <;>
    simp [buildRcbObject, hbuf, DataObject.attr, holderIp, ipOctets]

variable {b : Block} {ip : Option IpAddr}

lemma not_allowed_of_stranger (h : Stranger st conn ip) : st.allowed conn ip = false := by
  obtain ⟨hne, hheld⟩ := h
  unfold RcbRuntime.allowed
  split
  next o _ ho =>
    rw [beq_eq_false_iff_ne]
    rintro rfl
    exact hne ho
  next r ho hr =>
    have hr' : st.resvIp ≠ ip := by simpa [ho, hr] using hheld
    rw [beq_eq_false_iff_ne, ← hr]
    exact Ne.symm hr'
  · next ho hr => simp [ho, hr] at hheld

lemma untouched_onBlock {key : String} {b0 : Block}
    (hs : Placed (s.blocks.map Block.rs)) (hb0 : b0 ∈ s.blocks) (hkey : b0.rs.key = key)
    (hb : b ∈ s.blocks) (hne : b.rs.key ≠ key)
    (hfr : ∀ rs w, Frame servedAttrs rs w (f rs w)) : Untouched b s (s.onBlock key f) := by
  obtain ⟨before, after, hsplit⟩ := append_of_mem hb0
  rw [onBlock_eq hsplit hkey hs.keys_nodup]
  have hbb : b ≠ b0 := by
    rintro rfl
    exact hne hkey
  refine ⟨?_, ?_⟩
  · rw [hsplit] at hb
    simp only [mem_append, mem_cons] at hb ⊢
    rcases hb with hb | hb | hb
    · exact .inl hb
    · exact absurd hb hbb
    · exact .inr (.inr hb)
  have hapart : Apart b.rs b0.rs := (pairwise_map.mp hs.apart).forall hb hb0 hbb
  exact (hfr b0.rs (b0.work s.toEngine)).model.other b.rs hapart

lemma untouched_of_stranger {domain item : String} {v : Value} {refusal : Option DataAccessError}
    {now : SystemTime} (hs : Sited s) (hx : Respects cfg s (.write conn domain item v refusal now))
    (hb : b ∈ s.blocks) (hst : Stranger b.st conn (s.ipOf conn)) :
    Untouched b s (step cfg s (.write conn domain item v refusal now)) := by
  refine step_rule (fun hq => by cases hq) (fun _ => ⟨hb, rfl⟩) ?_ ?_
  · exact fun _ _ hm => ⟨hb, (beside_of_altered hs hx hm hb).object⟩
  intro st f hd
  cases hd with
  | @write _ b0 attr v conn now m hw =>
    -- The block that is written admits the writer, so it is another one.
    have hne : b.rs.key ≠ b0.rs.key := by
      intro hk
      obtain rfl := inj_on_of_nodup_map hs.placed.keys_nodup hb hw.mem hk
      obtain ⟨_, _, _, _, heq, -⟩ := hw.stored
      obtain ⟨rfl, -⟩ := Step.write.inj heq
      have hallowed := (admits_of_check hw.check).allowed
      rw [not_allowed_of_stranger hst] at hallowed
      cases hallowed
    obtain ⟨-, -, hoths⟩ := hw.setAttr hs
    have hfr (rs : RcbState) (w : Work) : Frame servedAttrs rs w
        (onRcbWrite (cfg.ctx now true) attr v conn (s.ipOf conn) rs w) := onRcbWrite_frame
    obtain ⟨hmem', hobj⟩ := untouched_onBlock (s := { s with model := m }) hs.placed hw.mem rfl hb hne hfr
    exact ⟨hmem', hobj.trans (hoths b hb hne).object⟩

variable {m : Model} {bufDefault : ℕ} {runtime : Bool} {s : State}

lemma heldIn_run (cfg : Config) (steps : List Step) (hs : Started m bufDefault runtime s) :
    ∀ b ∈ (run cfg s steps).blocks, HeldIn (run cfg s steps).toEngine b := by
  have hinv : ((run cfg s steps).blocks.map fun b => b.rs.key).Nodup ∧
      ∀ b ∈ (run cfg s steps).blocks, HeldIn (run cfg s steps).toEngine b := by
    refine run_invariant
      (fun s => (s.blocks.map fun b => b.rs.key).Nodup ∧ ∀ b ∈ s.blocks, HeldIn s.toEngine b)
      (fun s x h => ⟨keys_nodup_step h.1, heldIn_step h.1 h.2⟩) ⟨hs.keys_nodup, ?_⟩ steps
    intro b hb
    obtain ⟨ip, hst⟩ := (hs.block hb).1.fresh
    rw [HeldIn, hst]
    exact Held.of_disabled rfl rfl fun _ h => by cases h
  exact hinv.2

lemma reflectedIn_run (hw : WellNamed m) (hs : Started m bufDefault runtime s)
    (hm : Admitted cfg (Respects cfg) s steps) : Sited (run cfg s steps) ∧
      ∀ b ∈ (run cfg s steps).blocks, ReflectedIn (run cfg s steps).toEngine b := by
  refine run_induction (fun s => Sited s ∧ ∀ b ∈ s.blocks, ReflectedIn s.toEngine b)
    (fun s x h hx => ⟨sited_step h.1 hx, reflectedIn_step h.1 hx h.2⟩) ⟨hs.sited hw, ?_⟩ hm
  intro b hb
  exact ⟨(hs.sited hw).shaped b hb, reflected_start hw hs hb⟩

/-- In every run an enabled block is owned by the association it reports to, and no block is owned by one that
has ended. When the steps respect the rules of the blocks, the attributes show who holds a block, and a write by
anyone else does not touch it. -/
theorem reservation_exclusive (cfg : Config) (steps : List Step) (hs : Started m bufDefault runtime s) :
    let s' := run cfg s steps
    (∀ b ∈ s'.blocks, OwnedBySubscriber b.st) ∧
    (∀ conn, Ended cfg s steps conn → ∀ b ∈ s'.blocks, b.st.owner ≠ some conn ∧ b.st.conn ≠ some conn) ∧
    (WellNamed m → Admitted cfg (Respects cfg) s steps →
      (∀ b ∈ s'.blocks, Reflected s'.model b.rs b.st) ∧
      ∀ conn domain item v refusal now, Respects cfg s' (.write conn domain item v refusal now) →
        ∀ b ∈ s'.blocks, Stranger b.st conn (s'.ipOf conn) →
          Untouched b s' (step cfg s' (.write conn domain item v refusal now))) := by
  have hheld := heldIn_run cfg steps hs
  refine ⟨?_, ?_, ?_⟩
  · intro b hb
    have h := hheld b hb
    rw [OwnedBySubscriber]
    split
    next he =>
      obtain ⟨conn, ho⟩ := Option.isSome_iff_exists.mp (h.owned he)
      refine ⟨conn, ?_, ho⟩
      rw [h.subscriber, if_pos he, ho]
    · next he => exact h.conn_of_disabled (by simpa using he)
  · intro conn hend b hb
    have h := hheld b hb
    have hissued : Issued s := by
      obtain ⟨blocks, -, rfl⟩ := hs
      intro conn hc
      cases hc
    have habsent := absent_of_ended hissued hend
    have ho : b.st.owner ≠ some conn := fun ho => habsent (h.known conn ho)
    refine ⟨ho, ?_⟩
    rw [h.subscriber]
    split
    · exact ho
    · intro hc
      cases hc
  · intro hw hm
    obtain ⟨hsited, hrefl⟩ := reflectedIn_run hw hs hm
    refine ⟨fun b hb => (hrefl b hb).2, ?_⟩
    intro conn domain item v refusal now hx b hb hst
    exact untouched_of_stranger hsited hx hb hst

def heldBlock : ReportControl := { name := "b", dataSet := "ds", buffered := true }

def twoClients : List Step :=
  [.connect (some (.v4 10 0 0 1)) 0, .connect (some (.v4 10 0 0 2)) 0] ++
    writeRequest "LLN0$BR$b01$RptEna" (.boolean true) ++ [.beginRequest 2]

def serving (cfg : Config) (more : List Step) : State :=
  run cfg (start (sampleModel heldBlock) 0 true) (twoClients ++ more)

/-- The second client cannot disable the block, and once the first has gone it holds nothing. -/
theorem reservation_exclusive_two_clients : (∃ b ∈ (serving sampleConfig []).blocks,
      Reflected (serving sampleConfig []).model b.rs b.st ∧
      Stranger b.st 2 ((serving sampleConfig []).ipOf 2) ∧
      Untouched b (serving sampleConfig []) (step sampleConfig (serving sampleConfig [])
        (.write 2 "LD" "LLN0$BR$b01$RptEna" (.boolean false) none sampleTime))) ∧
    ∀ b ∈ (serving sampleConfig [.endAssociation 1 sampleTime]).blocks, b.st.owner ≠ some 1 ∧ b.st.conn ≠ some 1 := by
  have hs := started_start (sampleModel heldBlock) 0 true
  refine ⟨?_, ?_⟩
  · have hb : ∃ b ∈ (serving sampleConfig []).blocks,
        Stranger b.st 2 ((serving sampleConfig []).ipOf 2) := by decide +kernel
    obtain ⟨b, hb, hst⟩ := hb
    obtain ⟨-, -, hrules⟩ := reservation_exclusive sampleConfig (twoClients ++ []) hs
    obtain ⟨hrefl, hoth⟩ := hrules (by decide +kernel) (by decide +kernel)
    have hrespects : Respects sampleConfig (serving sampleConfig [])
        (.write 2 "LD" "LLN0$BR$b01$RptEna" (.boolean false) none sampleTime) := by decide +kernel
    exact ⟨b, hb, hrefl b hb, hst, hoth _ _ _ _ _ _ hrespects b hb hst⟩
  have hsc : ∃ sc ∈ (run sampleConfig (start (sampleModel heldBlock) 0 true) twoClients).conns.lookup 1,
      sc.inRequest = false := by decide +kernel
  obtain ⟨sc, hsc, hreq⟩ := hsc
  obtain ⟨-, hend, -⟩ := reservation_exclusive sampleConfig (twoClients ++ [.endAssociation 1 sampleTime]) hs
  exact hend 1 ⟨twoClients, sampleTime, [], sc, rfl, hsc, hreq⟩

def looseConfig : Config := { sampleConfig with writable := [.br] }

def overwriting : Step :=
  .write 2 "LD" "LLN0$br$b01$Owner" (.octetString [10, 0, 0, 2]) none sampleTime

/-- The write changes the block of the first client, and its owner reads wrong. -/
theorem owner_overwritten : ∃ b ∈ (serving looseConfig []).blocks, Stranger b.st 2 ((serving looseConfig []).ipOf 2) ∧
    ¬ Untouched b (serving looseConfig []) (step looseConfig (serving looseConfig []) overwriting) ∧
    ¬ Reflected (step looseConfig (serving looseConfig []) overwriting).model b.rs b.st := by
  have hrun : ∃ b ∈ (serving looseConfig []).blocks,
      Stranger b.st 2 ((serving looseConfig []).ipOf 2) ∧ b.rs.buffered = true ∧
      ipOctets (holderIp b.st) = [10, 0, 0, 1] ∧
      (attrValue (serving looseConfig []).model b.rs "Owner").map Value.bytes = some [10, 0, 0, 1] ∧
      (attrValue (step looseConfig (serving looseConfig []) overwriting).model b.rs "Owner").map
        Value.bytes = some [10, 0, 0, 2] := by decide +kernel
  obtain ⟨b, hb, hst, hbuf, hip, hold, hnew⟩ := hrun
  refine ⟨b, hb, hst, ?_, ?_⟩
  · rintro ⟨-, hobj⟩
    rw [attrValue, hobj] at hnew
    rw [attrValue, hnew] at hold
    cases hold
  intro hrefl
  rw [Reflected, if_pos hbuf, hip] at hrefl
  rw [hrefl] at hnew
  cases hnew

open Option

/-- The number that the next report carries: an enable starts again at zero. -/
def RcbRuntime.nextNumber (st : RcbRuntime) : ℕ := if st.enabled then st.sqNum else 0

/-- The attributes agree with the runtime state: `RptEna` with the enabled flag, `SqNum` with the number of
the next report, and the triggers read false. -/
structure Mirrored (m : Model) (rs : RcbState) (st : RcbRuntime) : Prop where
  rptEna : attrValue m rs "RptEna" = some (.boolean st.enabled)
  sqNum : attrValue m rs "SqNum" = some (sqNumValue rs st.nextNumber)
  gi : attrValue m rs "GI" = some (.boolean false)
  purgeBuf : rs.buffered = true → attrValue m rs "PurgeBuf" = some (.boolean false)

/-- The attributes agree with the runtime state and its counter, but for one that a write has just stored and not
yet applied. -/
structure MirroredBut (attr : String) (m : Model) (rs : RcbState) (st : RcbRuntime) : Prop where
  shaped : Shaped m rs
  rptEna : attr ≠ "RptEna" → attrValue m rs "RptEna" = some (.boolean st.enabled)
  sqNum : attrValue m rs "SqNum" = some (sqNumValue rs st.sqNum)
  gi : attr ≠ "GI" → attrValue m rs "GI" = some (.boolean false)
  purgeBuf : attr ≠ "PurgeBuf" → rs.buffered = true → attrValue m rs "PurgeBuf" = some (.boolean false)

def mirrorAttrs : List String := ["RptEna", "SqNum", "GI", "PurgeBuf"]

variable {attr : String} {m m' : Model} {rs : RcbState} {st st' : RcbRuntime} {c : Ctx} {w w' : Work}
  {conn : ConnId} {ip : Option IpAddr} {v : Value}

namespace MirroredBut

lemma but (h : MirroredBut "" m rs st) (attr : String) : MirroredBut attr m rs st :=
  ⟨h.shaped, fun _ => h.rptEna (by decide), h.sqNum, fun _ => h.gi (by decide), fun _ => h.purgeBuf (by decide)⟩

lemma of_eq (h : MirroredBut attr m rs st) (hs : Shaped m' rs)
    (hat : ∀ n ∈ mirrorAttrs, attrValue m' rs n = attrValue m rs n)
    (he : attr ≠ "RptEna" → st'.enabled = st.enabled) (hq : st'.sqNum = st.sqNum) :
    MirroredBut attr m' rs st' := by
  refine ⟨hs, ?_, ?_, ?_, ?_⟩
  · intro hne
    rw [hat "RptEna" (by decide), he hne]
    exact h.rptEna hne
  · rw [hat "SqNum" (by decide), hq]
    exact h.sqNum
  · rw [hat "GI" (by decide)]
    exact h.gi
  · rw [hat "PurgeBuf" (by decide)]
    exact h.purgeBuf

lemma of_st (h : MirroredBut attr m rs st) (he : attr ≠ "RptEna" → st'.enabled = st.enabled)
    (hq : st'.sqNum = st.sqNum) : MirroredBut attr m rs st' :=
  h.of_eq h.shaped (fun _ _ => rfl) he hq

lemma of_frame {names : List String} (h : MirroredBut attr w.model rs w.st)
    (hf : Frame names rs w w') (hn : ∀ n ∈ mirrorAttrs, n ∉ names)
    (he : w'.st.enabled = w.st.enabled) (hq : w'.st.sqNum = w.st.sqNum) :
    MirroredBut attr w'.model rs w'.st :=
  h.of_eq (hf.model.shaped h.shaped) (fun n hm => hf.model.attr n (hn n hm)) (fun _ => he) hq

lemma setAttr (h : MirroredBut attr m rs st) (name : String)
    (hn : name ∉ mirrorAttrs ∨ name = attr ∧ name ≠ "SqNum") (v : Value) :
    MirroredBut attr (setAttr m rs name v) rs st := by
  have hne {n : String} (hm : n ∈ mirrorAttrs) (hat : attr ≠ n ∨ n = "SqNum") :
      attrValue (Server.setAttr m rs name v) rs n = attrValue m rs n := by
    apply attrValue_setAttr_ne
    rintro rfl
    rcases hn with hn | ⟨rfl, hsq⟩
    · exact hn hm
    · exact hat.elim (fun h => h rfl) hsq
  refine ⟨shaped_setAttr _ _ _ h.shaped, ?_, ?_, ?_, ?_⟩
  · intro ha
    rw [hne (by decide) (.inl ha)]
    exact h.rptEna ha
  · rw [hne (by decide) (.inr rfl)]
    exact h.sqNum
  · intro ha
    rw [hne (by decide) (.inl ha)]
    exact h.gi ha
  · intro ha
    rw [hne (by decide) (.inl ha)]
    exact h.purgeBuf ha

lemma setSqNum (h : MirroredBut attr w.model rs w.st) (n : ℕ) :
    MirroredBut attr (setSqNum rs n w).model rs (setSqNum rs n w).st := by
  have hne {name : String} (hnm : name ≠ "SqNum") (v : Value) :
      attrValue (Server.setAttr w.model rs "SqNum" v) rs name = attrValue w.model rs name :=
    attrValue_setAttr_ne w.model rs v hnm
  have hhas : HasAttr w.model rs "SqNum" := h.shaped.hasAttr (by
    cases hb : rs.buffered <;> simp [rcbAttributes])
  refine ⟨shaped_setAttr _ _ _ h.shaped, ?_, attrValue_setAttr_same _ _ _ hhas, ?_, ?_⟩
  · rw [Server.setSqNum, hne (by decide)]
    exact h.rptEna
  · rw [Server.setSqNum, hne (by decide)]
    exact h.gi
  · rw [Server.setSqNum, hne (by decide)]
    exact h.purgeBuf

end MirroredBut

lemma mirrored_transmit {e : ReportEntry} (h : MirroredBut attr w.model rs w.st) :
    MirroredBut attr (transmit c rs e w).model rs (transmit c rs e w).st := by
  rcases transmit_cases c rs e w with ⟨heq, -⟩ | ⟨conn, sc, -, heq⟩
  · rw [heq]
    exact h
  -- The number goes up first; handing the report over changes neither copy.
  rw [heq]
  exact (h.setSqNum (w.st.sqNum + 1)).of_st (fun _ => rfl) rfl

lemma mirrored_rule (attr : String) (c : Ctx) (rs : RcbState) :
    ReportRule c rs fun w => MirroredBut attr w.model rs w.st where
  window _ _ _ h := h.of_st (fun _ => rfl) rfl
  task _ _ _ h := h
  captured _ _ h := h
  committed _ _ _ h := h
  sent _ _ _ _ h := mirrored_transmit h
  kept w e _ h := by
    apply kept_induction (Q := fun w => MirroredBut attr w.model rs w.st)
    · have hid := h.setAttr "EntryID" (.inl (by decide)) (.octetString (nextEntryId c w).1)
      exact (hid.setAttr "TimeofEntry" (.inl (by decide)) _).of_st (fun _ => rfl) rfl
    intro w h
    unfold discardOne
    split
    · exact h
    · split <;> exact h.of_st (fun _ => rfl) rfl
  handed _ _ _ _ _ h := (mirrored_transmit h).of_st (fun _ => rfl) rfl

lemma mirrored_reserves (h : MirroredBut attr w.model rs w.st) (hr : Reserves rs w w') :
    MirroredBut attr w'.model rs w'.st := by
  have hfr := hr.frame
  obtain ⟨_, _, _, _, _, _, _, -, rfl⟩ := hr
  exact h.of_frame hfr (by decide) rfl rfl

lemma mirrored_enable (h : MirroredBut "RptEna" w.model rs w.st) :
    MirroredBut "RptEna" (enable c rs conn ip w).model rs (enable c rs conn ip w).st := by
  have hsub : MirroredBut "RptEna" (subscribe conn w).model rs (subscribe conn w).st :=
    h.of_st (fun hne => absurd rfl hne) rfl
  have hp : MirroredBut "RptEna" (prepared rs conn ip w).model rs (prepared rs conn ip w).st := by
    dsimp only [prepared]
    split
    · exact ((mirrored_reserves hsub .take).setSqNum 0).of_st (fun _ => rfl) rfl
    · exact (hsub.setSqNum 0).of_st (fun _ => rfl) rfl
  have hd : MirroredBut "RptEna" (deliver c rs (prepared rs conn ip w)).model rs
      (deliver c rs (prepared rs conn ip w)).st := by
    rw [deliver]
    split
    next hb =>
      have hctl := resume_control (prepared rs conn ip w).st
      have hsq : (resume (prepared rs conn ip w).st).sqNum = (prepared rs conn ip w).st.sqNum := by
        obtain ⟨_, _, h⟩ := resume_eq (prepared rs conn ip w).st
        rw [h]
      have hen : (resume (prepared rs conn ip w).st).enabled := by
        obtain ⟨_, _, _, _, hst⟩ := prepared_st rs conn ip w
        rw [hctl.enabled, hst]
      exact (mirrored_rule "RptEna" c rs).transmitFrom hb _ _ hen (hp.of_st (fun _ => hctl.enabled) hsq)
    · exact hp
  rw [enable_eq]
  exact mirrored_reserves hd .startIntegrity

lemma enable_enabled : (enable c rs conn ip w).st.enabled := by
  obtain ⟨id, hd⟩ := deliver_control c rs (prepared rs conn ip w)
  obtain ⟨_, _, _, _, hst⟩ := prepared_st rs conn ip w
  rw [enable_eq, startIntegrity_st, hd.enabled, hst]

lemma disable_enabled : (disable c rs w).st.enabled = false := by
  rw [disable]
  split
  · exact release_enabled_conn.1
  · rfl

lemma mirrored_disable (h : MirroredBut "RptEna" w.model rs w.st) :
    MirroredBut "RptEna" (disable c rs w).model rs (disable c rs w).st := by
  have hf := (mirrored_rule "RptEna" c rs).events.flushPending h
  have hu : MirroredBut "RptEna" (unsubscribe (flushPending c rs w)).model rs
      (unsubscribe (flushPending c rs w)).st := hf.of_st (fun hne => absurd rfl hne) rfl
  rw [disable]
  split
  · exact mirrored_reserves hu .release
  · exact hu

lemma mirrored_write : WriteRule c attr v conn ip rs (fun w => MirroredBut attr w.model rs w.st)
    (fun w => MirroredBut attr w.model rs w.st) where
  task := id
  taken h _ := mirrored_reserves h .take
  reserved h _ := mirrored_reserves h .take
  released h _ _ := mirrored_reserves h .release
  idle h _ _ := h
  stopped h := h.of_st (fun _ => rfl) rfl
  enabled h heq _ := by
    subst heq
    exact mirrored_enable h
  disabled h heq := by
    subst heq
    exact mirrored_disable h
  reported h := (mirrored_rule attr c rs).events.reportAll h
  purged h _ := h.of_st (fun _ => rfl) rfl
  answered h ha := h.setAttr attr (.inr ⟨rfl, by rcases ha with rfl | rfl <;> decide⟩) _
  resynced h := h.of_st (fun _ => rfl) rfl
  revised h _ := h.setAttr "ConfRev" (.inl (by decide)) _

/-- A block that is not enabled has its counter at zero. -/
def Rested (st : RcbRuntime) : Prop := st.enabled = false → st.sqNum = 0

lemma rested_of_enabled (h : st.enabled) : Rested st := by
  intro hoff
  rw [h] at hoff
  cases hoff

lemma rested_rule (c : Ctx) (rs : RcbState) : ReportRule c rs fun w => Rested w.st where
  window _ _ _ h := h
  task _ _ _ h := h
  captured _ _ h := h
  committed _ _ _ h := h
  sent _ _ _ he _ := rested_of_enabled (transmit_control.enabled.trans he)
  kept w e _ h := by
    apply kept_induction (Q := fun w => Rested w.st) h
    intro w h
    unfold discardOne
    split
    · exact h
    · split <;> exact h
  handed _ _ _ he _ _ := rested_of_enabled (transmit_control.enabled.trans he)

lemma rested_reserves (h : Rested w.st) (hr : Reserves rs w w') : Rested w'.st := by
  obtain ⟨_, _, _, _, _, _, _, -, rfl⟩ := hr
  exact h

/-- Disabling the block leaves its counter at zero: it is disabled already, or has nothing sent and nothing to
send. -/
def Quits (st : RcbRuntime) : Prop := st.enabled = true → st.sqNum = 0 ∧ st.pending = none
deriving Decidable

lemma rested_disable (h : Rested w.st) (hq : Quits w.st) : Rested (disable c rs w).st := by
  have hz : (flushPending c rs w).st.sqNum = 0 := by
    cases he : w.st.enabled with
    | true =>
      obtain ⟨hsq, hp⟩ := hq he
      rw [flushPending, hp]
      exact hsq
    | false => exact (rested_rule c rs).events.flushPending h (flushPending_control.enabled.trans he)
  have hu : Rested (unsubscribe (flushPending c rs w)).st := fun _ => hz
  rw [disable]
  split
  · exact rested_reserves hu .release
  · exact hu

lemma rested_write (hoff : attr = "RptEna" → v.asBool = false) : WriteRule c attr v conn ip rs
    (fun w => Rested w.st ∧ (attr = "RptEna" → Quits w.st)) (fun w => Rested w.st) where
  task := id
  taken h _ := by
    obtain ⟨_, _, _, _, _, _, _, -, heq⟩ : Reserves rs _ _ := .take
    rw [heq]
    exact h
  reserved h _ := rested_reserves h.1 .take
  released h _ _ := rested_reserves h.1 .release
  idle h _ _ := h.1
  stopped := id
  enabled _ heq hv := by
    rw [hoff heq] at hv
    cases hv
  disabled h heq := rested_disable h.1 (h.2 heq)
  reported h := (rested_rule c rs).events.reportAll h
  purged h _ := h.1
  answered h _ := h
  resynced h := h
  revised h _ := h

lemma onRcbWrite_rptEna : (onRcbWrite c "RptEna" v conn ip rs w).st.enabled = v.asBool := by
  unfold onRcbWrite applyWrite
  simp only [String.reduceEq, if_false, if_true]
  split
  · next hv => rw [enable_enabled, hv]
  next hv =>
    rw [disable_enabled]
    exact ((Bool.not_eq_true _).mp hv).symm

lemma rested_onRcbWrite (h : Rested w.st) (hq : attr = "RptEna" → v.asBool = false → Quits w.st) :
    Rested (onRcbWrite c attr v conn ip rs w).st := by
  by_cases hon : attr = "RptEna" ∧ v.asBool
  · obtain ⟨rfl, hv⟩ := hon
    exact rested_of_enabled (onRcbWrite_rptEna.trans hv)
  · have hoff : attr = "RptEna" → v.asBool = false := by simpa using hon
    exact (rested_write hoff).onRcbWrite ⟨h, fun heq => hq heq (hoff heq)⟩

lemma eq_boolean_of_typeOf (h : v.typeOf = .boolean) : v = .boolean v.asBool := by
  cases v <;> first | rfl | cases h

lemma mirrored_written (h : MirroredBut attr w.model rs w.st) (hstd : attrValue w.model rs attr = some v)
    (hflag : attr = "RptEna" → v.typeOf = .boolean) :
    MirroredBut "" (onRcbWrite c attr v conn ip rs w).model rs (onRcbWrite c attr v conn ip rs w).st := by
  have hb : MirroredBut attr (onRcbWrite c attr v conn ip rs w).model rs
      (onRcbWrite c attr v conn ip rs w).st := mirrored_write.onRcbWrite h
  refine ⟨hb.shaped, fun _ => ?_, hb.sqNum, fun _ => ?_, fun _ => ?_⟩
  · by_cases ha : attr = "RptEna"
    · subst ha
      have hkp : attrValue (onRcbWrite c "RptEna" v conn ip rs w).model rs "RptEna" = some v := by
        rw [onRcbWrite_frame.model.attr "RptEna" (by decide)]
        exact hstd
      rw [hkp, onRcbWrite_rptEna, ← eq_boolean_of_typeOf (hflag rfl)]
    · exact hb.rptEna ha
  · by_cases ha : attr = "GI"
    · subst ha
      have hhas : HasAttr (onRcbWrite c "GI" v conn ip rs w).model rs "GI" := by
        refine hb.shaped.hasAttr ?_
        cases rs.buffered <;> simp [rcbAttributes]
      -- The trigger is set back as the last thing.
      unfold onRcbWrite applyWrite interrogate at hhas ⊢
      exact attrValue_setAttr_same _ _ _ ((hasAttr_setAttr _ _ _ _).mp hhas)
    · exact hb.gi ha
  · intro hbuf
    by_cases ha : attr = "PurgeBuf"
    · subst ha
      have hhas : HasAttr (onRcbWrite c "PurgeBuf" v conn ip rs w).model rs "PurgeBuf" := by
        refine hb.shaped.hasAttr ?_
        simp [rcbAttributes, hbuf]
      unfold onRcbWrite applyWrite at hhas ⊢
      simp only [String.reduceEq, if_false, if_true] at hhas ⊢
      exact attrValue_setAttr_same _ _ _ ((hasAttr_setAttr _ _ _ _).mp hhas)
    · exact hb.purgeBuf ha hbuf

/-- No association ends while a block reports to it, and no client disables a block that has sent a report or
has one to send. -/
def LeavesDisabled (s : State) : Step → Prop
  | .endAssociation conn _ => ∀ b ∈ s.blocks, b.st.conn ≠ some conn
  | .write _ domain item v _ _ => ∀ p ∈ rcbKey domain item, ∀ b ∈ s.blocks,
    b.rs.key = p.1 → p.2 = "RptEna" → v.asBool = false → Quits b.st
  | _ => True

instance (s : State) (x : Step) : Decidable (LeavesDisabled s x) := by
  apply @Step.casesOn (fun x => Decidable (LeavesDisabled s x)) x <;> intros <;> dsimp only [LeavesDisabled] <;> infer_instance

/-- A step keeps to the rules of the blocks and stops none of them at work. -/
def MirrorSafe (cfg : Config) (s : State) (x : Step) : Prop := Respects cfg s x ∧ LeavesDisabled s x
deriving Decidable

variable {cfg : Config} {s : State} {x : Step}

def MirroredIn (g : Engine) (b : Block) : Prop :=
  MirroredBut "" g.model b.rs b.st ∧ Rested b.st

variable {b : Block} {g : Engine}

lemma MirroredIn.mirrored (h : MirroredIn g b) : Mirrored g.model b.rs b.st := by
  refine ⟨h.1.rptEna (by decide), ?_, h.1.gi (by decide), h.1.purgeBuf (by decide)⟩
  rw [h.1.sqNum, RcbRuntime.nextNumber]
  split
  · rfl
  · next hoff => rw [h.2 ((Bool.not_eq_true _).mp hoff)]

lemma mirroredIn_of_object {g' : Engine} (h : MirroredIn g b)
    (ho : g'.model.object b.rs.domain b.rs.lnName b.rs.objectName =
      g.model.object b.rs.domain b.rs.lnName b.rs.objectName) : MirroredIn g' b := by
  have hshp : Shaped g'.model b.rs := by
    rw [Shaped, ho]
    exact h.1.shaped
  have hat (n : String) : attrValue g'.model b.rs n = attrValue g.model b.rs n := by
    rw [attrValue, ho, attrValue]
  exact ⟨h.1.of_eq hshp (fun n _ => hat n) (fun _ => rfl) rfl, h.2⟩

lemma mirroredIn_undisturbed : Undisturbed Apart MirroredIn := by
  refine ⟨?_, ?_⟩
  · intro g g' b ha h
    apply mirroredIn_of_object h
    rw [ha.model]
  · intro names rs w w' b hf hr h
    exact mirroredIn_of_object h (hf.model.other b.rs hr)

lemma mirroredIn_rule (cfg : Config) : BlockRule Apart (Beside cfg.render) cfg MirroredIn where
  undisturbed := mirroredIn_undisturbed
  beside _ _ _ hb h := mirroredIn_of_object h hb.object
  update _ _ _ b g h := ⟨(mirrored_rule "" _ _).events.onUpdateBlock (w := b.work g) h.1,
    (rested_rule _ _).events.onUpdateBlock h.2⟩
  window _ _ _ _ h := ⟨(mirrored_rule "" _ _).events.windowTask h.1, (rested_rule _ _).events.windowTask h.2⟩
  reservation _ _ _ h := ⟨mirrored_reserves h.1 .reservationTask, rested_reserves h.2 .reservationTask⟩
  integrity _ _ _ _ h := ⟨(mirrored_rule "" _ _).events.integrityTask h.1, (rested_rule _ _).events.integrityTask h.2⟩

lemma mirrored_disableConnBlock (h : MirroredBut "" w.model rs w.st ∧ Rested w.st) (hc : w.st.conn ≠ some conn) :
    let w' := disableConnBlock c conn rs w
    MirroredBut "" w'.model rs w'.st ∧ Rested w'.st := by
  rw [disableConnBlock, if_neg hc]
  split
  · exact ⟨mirrored_reserves h.1 .release, rested_reserves h.2 .release⟩
  · exact h

lemma mirroredIn_step (hs : Sited s) (hx : MirrorSafe cfg s x) (h : ∀ b ∈ s.blocks, MirroredIn s.toEngine b) :
    ∀ b ∈ (step cfg s x).blocks, MirroredIn (step cfg s x).toEngine b := by
  refine step_forall_sited (mirroredIn_rule cfg) hs hx.1 ?_ ?_ h
  · intro b attr v conn now m hw
    obtain ⟨-, ⟨o, da, ho, hda, hfits⟩, -⟩ := hw.setAttr hs
    have hb := h b hw.mem
    have hmain := (admits_of_check hw.check).maintained
    -- The stored value stands in the attribute until its effect is applied.
    have hstd : MirroredBut attr (setAttr s.model b.rs attr v) b.rs b.st := by
      apply (hb.1.but attr).setAttr attr (.inr ⟨rfl, ?_⟩)
      rintro rfl
      exact hmain (by decide)
    have hhas : HasAttr s.model b.rs attr := by
      rw [HasAttr, ho, bind_some, hda]
      rfl
    obtain ⟨domain, item, _, _, rfl, hkey, -⟩ := hw.stored
    refine ⟨?_, rested_onRcbWrite hb.2 (hx.2 _ hkey b hw.mem rfl)⟩
    refine mirrored_written (w := b.written s (setAttr s.model b.rs attr v)) hstd
      (attrValue_setAttr_same _ _ _ hhas) ?_
    -- A flag is only replaced by a flag.
    rintro rfl
    have hcur : da.value = some (.boolean b.st.enabled) := by
      have := hb.1.rptEna (by decide)
      rw [attrValue, ho, bind_some, hda] at this
      exact this
    exact typeOf_of_valueFits hfits hcur (by simp [Value.typeOf])
  · intro conn now sc hend _
    subst hend
    refine onBlocks_forall (mirroredIn_undisturbed.and fun b => b.st.conn ≠ some conn) mirroredIn_undisturbed
      (fun _ _ => disableConnBlock_frame) ?_ (List.pairwise_map.mp hs.placed.apart) ?_
    · intro b g hb
      exact mirrored_disableConnBlock hb.1 hb.2
    · intro b hb
      exact ⟨mirroredIn_of_object (h b hb) rfl, hx.2 b hb⟩

lemma mirrored_start {bufDefault : ℕ} {runtime : Bool} (hw : WellNamed m)
    (h : Started m bufDefault runtime s) (hb : b ∈ s.blocks) : MirroredIn s.toEngine b := by
  have hrest : Rested b.st := by
    obtain ⟨ip, hst⟩ := (h.block hb).1.fresh
    intro _
    rw [hst]
  obtain ⟨ldName, lnName, rc, i, name, heq, hobj⟩ := h.object hw hb
  have hat (n : String) : attrValue s.model b.rs n =
      ((materialiseRcb ldName lnName bufDefault rc i name).1.attr n).bind DataAttribute.value := by
    rw [attrValue, hobj, bind_some]
  refine ⟨⟨(h.sited hw).shaped b hb, fun _ => ?_, ?_, fun _ => ?_, fun _ => ?_⟩, hrest⟩
  all_goals
    rw [hat]
    unfold materialiseRcb at heq ⊢
    dsimp only at heq ⊢
    -- The attributes that a configured reservation changes are none of these.
    split at heq
    all_goals
      obtain ⟨hrs, hst⟩ := Prod.mk.inj heq
      have hb : b.rs.buffered = rc.buffered := by rw [← hrs]
      have he : b.st.enabled = false ∧ b.st.sqNum = 0 := by
        rw [← hst]
        exact ⟨rfl, rfl⟩
      cases hbuf : rc.buffered <;>
        simp [buildRcbObject, reserveAttributes, hb, hbuf, he, DataObject.attr, sqNumValue]

variable {m : Model} {bufDefault : ℕ} {runtime : Bool} {s : State}

/-- In every run that keeps to the rules of the blocks and stops none of them at work, the attributes of every
block show its runtime state. -/
theorem attributes_mirror_runtime (cfg : Config) (steps : List Step) (hw : WellNamed m)
    (hs : Started m bufDefault runtime s) (hm : Admitted cfg (MirrorSafe cfg) s steps) :
    ∀ b ∈ (run cfg s steps).blocks, Mirrored (run cfg s steps).model b.rs b.st := by
  have hinv : Sited (run cfg s steps) ∧
      ∀ b ∈ (run cfg s steps).blocks, MirroredIn (run cfg s steps).toEngine b := by
    refine run_induction (fun s => Sited s ∧ ∀ b ∈ s.blocks, MirroredIn s.toEngine b) ?_ ?_ hm
    · intro s x h hx
      exact ⟨sited_step h.1 hx.1, mirroredIn_step h.1 hx h.2⟩
    refine ⟨hs.sited hw, ?_⟩
    intro b hb
    exact mirrored_start hw hs hb
  intro b hb
  exact (hinv.2 b hb).mirrored

def reporting : List Step :=
  .connect none 0 :: writeRequest "LLN0$BR$b01$RptEna" (.boolean true) ++ [setStVal true] ++
    [.fire (.window "LD\x00LLN0$BR$b01" 0) sampleTime]

def reportedOnce : State := run sampleConfig (start (sampleModel windowedBlock) 0 true) reporting

def left (disableFirst : Bool) : State :=
  run sampleConfig reportedOnce
    ((if disableFirst then writeRequest "LLN0$BR$b01$RptEna" (.boolean false) else []) ++ [.endAssociation 1 sampleTime])

/-- One report was sent, and the next is number 1. -/
theorem attributes_mirror_runtime_reported :
    ∃ b ∈ reportedOnce.blocks, b.st.nextNumber = 1 ∧ Mirrored reportedOnce.model b.rs b.st := by
  have hrun : ∃ b ∈ reportedOnce.blocks, b.st.nextNumber = 1 := by decide +kernel
  obtain ⟨b, hb, hnx⟩ := hrun
  exact ⟨b, hb, hnx, attributes_mirror_runtime sampleConfig reporting (by decide +kernel)
    (started_start (sampleModel windowedBlock) 0 true) (by decide +kernel) b hb⟩

/-- After a client that just left, the block is disabled and `RptEna` reads true. After one that disabled it first,
`SqNum` reads 1, and the next report is number 0. -/
theorem rptEna_left_true : (∃ b ∈ (left false).blocks, b.st.enabled = false ∧
      attrValue (left false).model b.rs "RptEna" = some (.boolean true) ∧ ¬ Mirrored (left false).model b.rs b.st) ∧
    ∃ b ∈ (left true).blocks, b.st.nextNumber = 0 ∧
      (attrValue (left true).model b.rs "SqNum").map Value.asU32 = some 1 ∧ ¬ Mirrored (left true).model b.rs b.st := by
  constructor
  · have hrun : ∃ b ∈ (left false).blocks, b.st.enabled = false ∧
        (attrValue (left false).model b.rs "RptEna").map Value.typeOf = some .boolean ∧
        (attrValue (left false).model b.rs "RptEna").map Value.asBool = some true := by decide +kernel
    obtain ⟨b, hb, hen, hty, hval⟩ := hrun
    have hat : attrValue (left false).model b.rs "RptEna" = some (.boolean true) := by
      obtain ⟨v, hv, hv'⟩ := map_eq_some_iff.mp hty
      rw [hv, eq_boolean_of_typeOf hv']
      rw [hv] at hval
      rw [some.inj hval]
    refine ⟨b, hb, hen, hat, ?_⟩
    intro h
    have := h.rptEna
    rw [hat, hen] at this
    simp at this
  · have hrun : ∃ b ∈ (left true).blocks, b.st.nextNumber = 0 ∧
        (attrValue (left true).model b.rs "SqNum").map Value.asU32 = some 1 := by decide +kernel
    obtain ⟨b, hb, hnx, hval⟩ := hrun
    refine ⟨b, hb, hnx, hval, ?_⟩
    intro h
    rw [h.sqNum, hnx, sqNumValue] at hval
    split at hval <;> cases hval

end Iec61850.Server
