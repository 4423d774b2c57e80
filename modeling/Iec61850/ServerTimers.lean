import Iec61850.ServerStart

/-! Timer tasks that act late. -/
namespace Iec61850.Server
open Mms List

/-- A generation has passed, or it has not and something is as before. -/
def Ages (g g' : ℕ) (P : Prop) : Prop := g < g' ∨ g' = g ∧ P

lemma Ages.trans {g g' g'' : ℕ} {P P' P'' : Prop} (h : Ages g g' P) (h' : Ages g' g'' P')
    (hp : P → P' → P'') : Ages g g'' P'' := by
  rcases h with hlt | ⟨rfl, hP⟩ <;> rcases h' with hlt' | ⟨rfl, hP'⟩
  · exact .inl (hlt.trans hlt')
  · exact .inl hlt
  · exact .inl hlt'
  · exact .inr ⟨rfl, hp hP hP'⟩

lemma Ages.live {n g g' : ℕ} {P L L' : Prop} (h : Ages g g' P) (hl : P → L → L') (ht : n < g ∨ n = g ∧ L) :
    n < g' ∨ (n = g ∧ L) ∧ n = g' ∧ L' := by
  rcases h with hlt | ⟨rfl, hP⟩
  · exact .inl (by omega)
  · exact ht.imp_right fun hn => ⟨hn, hn.1, hl hP hn.2⟩

/-- How a block ages. While its generations stay, no subscription begins or ends, the window only grows, and
nobody takes the block or its reservation. -/
structure Aged (st st' : RcbRuntime) : Prop where
  integrity : Ages st.integrityGen st'.integrityGen (st'.enabled = st.enabled ∧ st'.conn = st.conn)
  window : Ages st.pendingGen st'.pendingGen (∀ p ∈ st.pending, ∃ p' ∈ st'.pending, p.origins <+: p'.origins)
  reservation : Ages st.resvGen st'.resvGen
    ((st.owner = none → st'.owner = none) ∧ (st'.resvIp = none ∨ st'.resvIp = st.resvIp))

namespace Task

def key : Task → String
  | integrity key _ | window key _ | reservation key _ => key

def work (c : Ctx) : Task → RcbState → Work → Work
  | integrity _ generation => integrityTask c generation
  | window _ generation => windowTask c generation
  | reservation _ generation => reservationTask generation

/-- What the task was started for is there: the subscription, the open window, the block that nobody has taken. -/
def Live (st : RcbRuntime) : Task → Prop
  | integrity _ generation => generation = st.integrityGen ∧ st.enabled = true
  | window _ generation => generation = st.pendingGen ∧ st.pending.isSome = true
  | reservation _ generation => generation = st.resvGen ∧ st.owner = none

def Over (st : RcbRuntime) : Task → Prop
  | integrity _ generation => generation < st.integrityGen
  | window _ generation => generation < st.pendingGen
  | reservation _ generation => generation < st.resvGen

lemma work_of_over {t : Task} {c : Ctx} {rs : RcbState} {w : Work} (h : t.Over w.st) : t.work c rs w = w := by
  cases t with
  | integrity => exact if_pos (.inl (Nat.ne_of_gt h))
  | window => exact if_neg (Nat.ne_of_gt h)
  | reservation => exact if_neg fun hno => Nat.ne_of_gt h hno.1

end Task

namespace Aged
variable {st st' st'' : RcbRuntime} {t : Task}

lemma of_control (h : SameControl st st')
    (hw : Ages st.pendingGen st'.pendingGen (∀ p ∈ st.pending, ∃ p' ∈ st'.pending, p.origins <+: p'.origins)) :
    Aged st st' :=
  ⟨.inr ⟨h.integrityGen, h.enabled, h.conn⟩, hw, .inr ⟨h.resvGen, h.owner.trans, .inr h.resvIp⟩⟩

lemma refl : Aged st st := of_control .refl (.inr ⟨rfl, fun p hp => ⟨p, hp, prefix_refl _⟩⟩)

lemma trans (h : Aged st st') (h' : Aged st' st'') : Aged st st'' where
  integrity := h.integrity.trans h'.integrity fun hp hp' => ⟨hp'.1.trans hp.1, hp'.2.trans hp.2⟩
  window := by
    refine h.window.trans h'.window fun hp hp' p hm => ?_
    obtain ⟨p', hmem', hle⟩ := hp p hm
    obtain ⟨p'', hmem'', hle'⟩ := hp' p' hmem'
    exact ⟨p'', hmem'', hle.trans hle'⟩
  reservation := by
    refine h.reservation.trans h'.reservation fun hp hp' => ⟨hp'.1 ∘ hp.1, ?_⟩
    rcases hp'.2 with hno | heq
    · exact .inl hno
    · rw [heq]
      exact hp.2

/-- A task that has something to do had it all along. -/
theorem live (h : Aged st st') (ht : t.Over st ∨ t.Live st) : t.Over st' ∨ t.Live st ∧ t.Live st' := by
  cases t with
  | integrity => exact h.integrity.live (fun hp he => hp.1.trans he) ht
  | window =>
    refine h.window.live (fun hp he => ?_) ht
    obtain ⟨p, hm⟩ := Option.isSome_iff_exists.mp he
    obtain ⟨p', hmem', -⟩ := hp p hm
    exact Option.isSome_of_eq_some hmem'
  | reservation => exact h.reservation.live (fun hp ho => hp.1 ho) ht

end Aged

/-- Work on a block starts tasks for what there is, and a window that opens has its own. -/
structure Onward (rs : RcbState) (w w' : Work) : Prop extends Aged w.st w'.st where
  started : ∀ t ∈ w'.tasks, t ∈ w.tasks ∨ t.key = rs.key ∧ (t.Over w'.st ∨ t.Live w'.st)
  kept : ∀ t ∈ w.tasks, t ∈ w'.tasks
  timed : w'.st.pending.isSome = true → w.st.pending.isSome = true ∧ w'.st.pendingGen = w.st.pendingGen ∨
    .window rs.key w'.st.pendingGen ∈ w'.tasks

namespace Onward
variable {c : Ctx} {rs : RcbState} {w w' w'' : Work} {t : Task} {conn : ConnId} {ip : Option IpAddr}

lemma trans (h : Onward rs w w') (h' : Onward rs w' w'') : Onward rs w w'' where
  toAged := h.toAged.trans h'.toAged
  started t ht := by
    rcases h'.started t ht with ht | hnew
    · exact (h.started t ht).imp_right fun hnew => ⟨hnew.1, (h'.live hnew.2).imp_right And.right⟩
    · exact .inr hnew
  kept t ht := h'.kept t (h.kept t ht)
  timed hp := by
    rcases h'.timed hp with ⟨hp', heq⟩ | hm
    · rw [heq]
      exact (h.timed hp').imp_right (h'.kept _)
    · exact .inr hm

lemma of_window (hi : Ages w.st.integrityGen w'.st.integrityGen (w'.st.enabled = w.st.enabled ∧ w'.st.conn = w.st.conn))
    (hr : Ages w.st.resvGen w'.st.resvGen ((w.st.owner = none → w'.st.owner = none) ∧
      (w'.st.resvIp = none ∨ w'.st.resvIp = w.st.resvIp)))
    (hn : w'.st.pendingGen = w.st.pendingGen) (hp : w'.st.pending = w.st.pending) (ht : w'.tasks = w.tasks) :
    Onward rs w w' where
  integrity := hi
  window := .inr ⟨hn, fun p h => ⟨p, hp ▸ h, prefix_refl _⟩⟩
  reservation := hr
  started _ h := .inl (ht ▸ h)
  kept _ h := ht ▸ h
  timed h := .inl ⟨hp ▸ h, hn⟩

lemma of_commits (h : Commits w w') : Onward rs w w' :=
  of_window (.inr ⟨h.integrityGen, h.enabled, h.conn⟩) (.inr ⟨h.resvGen, h.owner.trans, .inr h.resvIp⟩) h.pendingGen
    h.pending h.tasks

lemma refl : Onward rs w w := of_commits .refl

lemma events : EventRule c rs (Onward rs w) where
  emitted _ _ h := h.trans (of_commits emit_control)
  closed w' p _ h := h.trans
    { toAged := .of_control ⟨rfl, rfl, rfl, rfl, rfl, rfl, rfl, rfl, rfl⟩ (.inl (Nat.lt_succ_self _))
      started := fun _ => .inl
      kept := fun _ => id
      timed := fun h => by cases h }
  merged w' p e hp h := h.trans
    { toAged := .of_control ⟨rfl, rfl, rfl, rfl, rfl, rfl, rfl, rfl, rfl⟩ (.inr ⟨rfl, fun q hq => ⟨_, rfl, by
        obtain rfl := Option.some_inj.mp (hp.symm.trans hq)
        exact prefix_append _ _⟩⟩)
      started := fun _ => .inl
      kept := fun _ => id
      timed := fun _ => .inl ⟨by rw [hp]; rfl, rfl⟩ }
  opened w' w'' e hp hs h := by
    rw [spawn_eq hs]
    exact h.trans
      { toAged := .of_control ⟨rfl, rfl, rfl, rfl, rfl, rfl, rfl, rfl, rfl⟩
          (.inr ⟨rfl, fun q hq => by rw [hp] at hq; cases hq⟩)
        started := fun t ht => (mem_append.mp ht).imp_right fun ht => by
          obtain rfl := mem_singleton.mp ht
          exact ⟨rfl, .inr ⟨rfl, rfl⟩⟩
        kept := fun _ => mem_append_left _
        timed := fun _ => .inr (by simp [withPending]) }
  captured _ _ h := h.trans (of_commits ⟨.refl, rfl⟩)

lemma spawned (h : Onward rs w w') (hk : t.key = rs.key) (hl : t.Live w'.st) :
    Onward rs w ((spawn c t w').getD w') := by
  rcases spawn_getD_eq c t w' with heq | heq <;> rw [heq]
  · exact h
  exact
    { h.toAged with
      started := fun t' ht => (mem_append.mp ht).elim (h.started t') fun ht => by
        obtain rfl := mem_singleton.mp ht
        exact .inr ⟨hk, .inr hl⟩
      kept := fun t' ht => mem_append_left _ (h.kept t' ht)
      timed := fun hp => (h.timed hp).imp_right (mem_append_left _) }

lemma synced (h : Onward rs w w') : Onward rs w (syncResv rs w') := by
  have hm {m : Model} : Onward rs w' { w' with model := m } := of_commits ⟨.refl, rfl⟩
  unfold syncResv
  split
  · exact h.trans hm
  · exact h.trans hm

/-- The reservation gets a new generation. -/
theorem renewed {owner : Option ConnId} {ownerIp resvIp : Option IpAddr} : Onward rs w { w with
    st := { w.st with owner := owner, ownerIp := ownerIp, resvIp := resvIp, resvGen := w.st.resvGen + 1 } } :=
  of_window (.inr ⟨rfl, rfl, rfl⟩) (.inl (Nat.lt_succ_self _)) rfl rfl rfl

lemma take : Onward rs w (take rs conn ip w) := by
  refine synced ?_
  split
  · exact renewed
  · exact renewed

lemma release : Onward rs w (release c rs w) := by
  dsimp only [Server.release]
  split
  · exact synced (of_window (.inr ⟨rfl, rfl, rfl⟩) (.inr ⟨rfl, fun _ => rfl, .inr rfl⟩) rfl rfl rfl)
  split
  · split
    · exact synced renewed
    · exact synced (spawned renewed rfl ⟨rfl, rfl⟩)
  · exact synced renewed

lemma reservationTask {generation : ℕ} : Onward rs w (reservationTask generation rs w) := by
  unfold Server.reservationTask
  split
  · exact synced (of_window (.inr ⟨rfl, rfl, rfl⟩) (.inr ⟨rfl, id, .inl rfl⟩) rfl rfl rfl)
  · exact refl

lemma enable : Onward rs w (enable c rs conn ip w) := by
  have htaken (w : Work) : Onward rs w (if w.st.owner ≠ some conn then Server.take rs conn ip w else w) := by
    split
    · exact take
    · exact refl
  have ho := htaken (subscribe conn w)
  have htasks : (prepared rs conn ip w).tasks = w.tasks := by
    dsimp only [prepared, Server.take, syncResv]
    split_ifs <;> rfl
  obtain ⟨_, _, _, _, hst⟩ := prepared_st rs conn ip w
  obtain ⟨_, hd⟩ := deliver_control c rs (prepared rs conn ip w)
  have hp : Onward rs w (prepared rs conn ip w) :=
    { integrity := .inl (by rw [hst]; exact Nat.lt_succ_self _)
      window := ho.window
      reservation := ho.reservation
      started := fun _ ht => .inl (htasks ▸ ht)
      kept := ho.kept
      timed := ho.timed }
  have hdel : Onward rs (prepared rs conn ip w) (deliver c rs (prepared rs conn ip w)) :=
    of_window (.inr ⟨hd.integrityGen, hd.enabled, hd.conn⟩) (.inr ⟨hd.resvGen, hd.owner.trans, .inr hd.resvIp⟩)
      hd.pendingGen hd.pending hd.tasks
  rw [enable_eq, startIntegrity]
  split
  · refine spawned (hp.trans hdel) rfl ⟨rfl, ?_⟩
    rw [hd.enabled, hst]
  · exact hp.trans hdel

lemma disable : Onward rs w (disable c rs w) := by
  have hu : Onward rs w (unsubscribe (flushPending c rs w)) := (events.flushPending refl).trans
    (of_window (.inl (Nat.lt_succ_self _)) (.inr ⟨rfl, id, .inr rfl⟩) rfl rfl rfl)
  unfold Server.disable
  split
  · exact hu.trans release
  · exact hu

lemma write {attr : String} {v : Value} : WriteRule c attr v conn ip rs (Onward rs w) (Onward rs w) where
  task h := h.trans (of_commits ⟨.refl, rfl⟩)
  taken h _ := h.trans take
  reserved h _ := h.trans take
  released h _ _ := h.trans release
  idle h _ _ := h
  stopped h := h.trans renewed
  enabled h _ _ := h.trans enable
  disabled h _ := h.trans disable
  reported h := events.reportAll h
  purged h _ := h.trans (of_window (.inr ⟨rfl, rfl, rfl⟩) (.inr ⟨rfl, id, .inr rfl⟩) rfl rfl rfl)
  answered h _ := h.trans (of_commits ⟨.refl, rfl⟩)
  resynced h := h.trans (of_window (.inr ⟨rfl, rfl, rfl⟩) (.inr ⟨rfl, id, .inr rfl⟩) rfl rfl rfl)
  revised h _ := h.trans (of_commits ⟨.refl, rfl⟩)

end Onward

def RcbRuntime.shutdown (st : RcbRuntime) : RcbRuntime :=
  let st := ({ st with enabled := false, conn := none } : RcbRuntime).stopIntegrity.stopResvTimer
  { st with pendingGen := st.pendingGen + 1 }

lemma aged_shutdown {st : RcbRuntime} : Aged st st.shutdown :=
  ⟨.inl (Nat.lt_succ_self _), .inl (Nat.lt_succ_self _), .inl (Nat.lt_succ_self _)⟩

inductive Act where
  | step (x : Step)
  /-- The server is closed. Its associations end in steps of their own. -/
  | close

def act (cfg : Config) (s : State) : Act → State
  | .step x => step cfg s x
  | .close => { s with blocks := s.blocks.map fun b => { b with st := b.st.shutdown } }

/-- The server is not closed while a window is open. -/
def Spares (s : State) : Act → Prop
  | .step _ => True
  | .close => ∀ b ∈ s.blocks, b.st.pending.isSome = false

/-- The tasks are for what there is or was, and an open window has its own, except where `D` says. -/
structure Timed (D : Block → Prop) (tasks : List Task) (b : Block) : Prop where
  fits : ∀ t ∈ tasks, t.key = b.rs.key → t.Over b.st ∨ t.Live b.st
  window : b.st.pending.isSome = true → D b ∨ .window b.rs.key b.st.pendingGen ∈ tasks

def AllTimed (s : State) : Prop := ∀ b ∈ s.blocks, Timed (fun _ => False) s.tasks b

def Later (s s' : State) : Prop := ∀ b' ∈ s'.blocks, ∃ b ∈ s.blocks, b.rs = b'.rs ∧ Aged b.st b'.st

variable {cfg : Config} {s st : State} {x : Step} {f : RcbState → Work → Work}

lemma Duty.onward (h : Duty cfg s x st f) (rs : RcbState) (w : Work) : Onward rs w (f rs w) := by
  have hite {p : Prop} [Decidable p] {w' : Work} (h : Onward rs w w') : Onward rs w (if p then w' else w) := by
    split
    · exact h
    · exact .refl
  cases h with
  | write => exact hite (Onward.write.onRcbWrite .refl)
  | written | update => exact Onward.events.onUpdateBlock .refl
  | window => exact hite (Onward.events.windowTask .refl)
  | reservation => exact hite .reservationTask
  | integrity => exact hite (Onward.events.integrityTask .refl)
  | ended => exact disableConnBlock_rule (fun _ => .refl) (fun _ => .disable) fun _ h => h.trans .release

lemma Timed.other {D : Block → Prop} {rs : RcbState} {w w' : Work} {b : Block} (h : Timed D w.tasks b)
    (hne : b.rs.key ≠ rs.key) (ho : Onward rs w w') : Timed D w'.tasks b where
  fits t ht hk := (ho.started t ht).elim (fun ht => h.fits t ht hk) fun hnew => absurd (hk.symm.trans hnew.1) hne
  window hp := (h.window hp).imp_right (ho.kept _)

lemma timed_onBlocks (hn : (st.blocks.map fun b => b.rs.key).Nodup) (hf : ∀ rs w, Onward rs w (f rs w))
    (h : ∀ b ∈ st.blocks, Timed (fun b => ∀ g, (f b.rs (b.work g)).st.pending = none) st.tasks b) :
    AllTimed (st.onBlocks f) := by
  refine runBlocks_forall (R := fun rs rs' => rs.key ≠ rs'.key) (fun g b => Timed _ g.tasks b)
    (fun g b => Timed _ g.tasks b) ?_ ?_ ?_ st.blocks st.toEngine (pairwise_map.mp hn) h
  · intro b g hb
    have ho := hf b.rs (b.work g)
    refine ⟨fun t ht hk => ?_, fun hp => .inr ?_⟩
    · rcases ho.started t ht with ht | hnew
      · exact (ho.live (hb.fits t ht hk)).imp_right And.right
      · exact hnew.2
    rcases ho.timed hp with ⟨hp', heq⟩ | hm
    · rcases hb.window hp' with hd | hm
      · rw [show (b.after (f b.rs (b.work g))).st.pending = none from hd g] at hp
        cases hp
      · exact ho.kept _ (heq ▸ hm)
    · exact hm
  · exact fun b b' g hne hb => hb.other (Ne.symm hne) (hf b.rs (b.work g))
  · exact fun b b' g hne hb => hb.other hne (hf b'.rs (b'.work g))

lemma timed_step (hn : (s.blocks.map fun b => b.rs.key).Nodup) (h : AllTimed s) : AllTimed (step cfg s x) := by
  refine step_rule (fun hq => ?_) (fun _ => h) (fun _ _ _ => h) fun st f hd => ?_
  · obtain ⟨hb, ht, -⟩ := step_quiet cfg s hq
    rw [AllTimed, hb, ht]
    exact h
  refine timed_onBlocks (hd.blocks ▸ hn) hd.onward ?_
  -- A task that acts is no longer there; where it was that of a window, the window is closed.
  have hlost {D : Block → Prop} (t : Task) (ht : ∀ b : Block, t = .window b.rs.key b.st.pendingGen → D b) (b : Block)
      (hb : b ∈ s.blocks) : Timed D (s.tasks.erase t) b := by
    refine ⟨fun t' ht' => (h b hb).fits t' (mem_of_mem_erase ht'), fun hp => ?_⟩
    by_cases heq : t = .window b.rs.key b.st.pendingGen
    · exact .inl (ht b heq)
    · exact .inr ((mem_erase_of_ne (Ne.symm heq)).mpr (((h b hb).window hp).resolve_left id))
  cases hd with
  | window =>
    refine hlost _ fun b heq g => ?_
    obtain ⟨rfl, rfl⟩ := Task.window.inj heq
    simp only [if_true]
    rw [windowTask, if_pos (show (b.work g).st.pendingGen = b.st.pendingGen from rfl), flushPending_pending]
  | reservation => exact hlost _ fun _ heq => by cases heq
  | _ => exact fun b hb => ⟨(h b hb).fits, fun hp => ((h b hb).window hp).imp_left False.elim⟩

lemma timed_close (h : AllTimed s) (hx : Spares s .close) : AllTimed (act cfg s .close) := by
  intro b' hb'
  obtain ⟨b, hb, rfl⟩ := mem_map.mp hb'
  refine ⟨fun t ht hk => (aged_shutdown.live ((h b hb).fits t ht hk)).imp_right And.right, fun hp => ?_⟩
  exact absurd (hp.symm.trans (hx b hb)) (by simp)

lemma keys_act {a : Act} (hn : (s.blocks.map fun b => b.rs.key).Nodup) :
    ((act cfg s a).blocks.map fun b => b.rs.key).Nodup := by
  cases a with
  | step x => exact keys_nodup_step hn
  | close =>
    rw [act, map_map]
    exact hn

lemma runBlocks_mem {b' : Block} {bs : List Block} {g : Engine} (h : b' ∈ (runBlocks f bs g).2) :
    ∃ b ∈ bs, ∃ g, b' = b.after (f b.rs (b.work g)) := by
  induction bs generalizing g with
  | nil => cases h
  | cons b rest ih =>
    rcases mem_cons.mp h with rfl | h
    · exact ⟨b, mem_cons_self, g, rfl⟩
    · obtain ⟨b0, hb, hg⟩ := ih h
      exact ⟨b0, mem_cons_of_mem _ hb, hg⟩

lemma later_act (a : Act) : Later s (act cfg s a) := by
  have hsm {s' : State} (hb : s'.blocks = s.blocks) : Later s s' := fun b hm => ⟨b, hb ▸ hm, rfl, .refl⟩
  cases a with
  | step x =>
    show Later s (step cfg s x)
    refine step_rule (fun hq => hsm (step_quiet cfg s hq).1) (fun _ => hsm rfl)
      (fun _ _ _ => hsm rfl) fun st f hd b' hm => ?_
    obtain ⟨b, hb, g, rfl⟩ := runBlocks_mem hm
    exact ⟨b, hd.blocks ▸ hb, rfl, (hd.onward b.rs (b.work g)).toAged⟩
  | close =>
    intro b' hb'
    obtain ⟨b, hb, rfl⟩ := mem_map.mp hb'
    exact ⟨b, hb, rfl, aged_shutdown⟩

lemma later_run (acts : List Act) (s : State) : Later s (acts.foldl (act cfg) s) := by
  induction acts generalizing s with
  | nil => exact fun b hm => ⟨b, hm, rfl, .refl⟩
  | cons a rest ih =>
    intro b'' hm
    obtain ⟨b', hb', hrs', ha'⟩ := ih (act cfg s a) b'' hm
    obtain ⟨b, hb, hrs, ha⟩ := later_act a b' hb'
    exact ⟨b, hb, hrs.trans hrs', ha.trans ha'⟩

variable {m : Model} {bufDefault : ℕ} {runtime : Bool} {cfg : Config} {s : State} {acts : List Act}

lemma Started.timed (hs : Started m bufDefault runtime s) : AllTimed s := by
  intro b hb
  obtain ⟨ip, hst⟩ := (hs.block hb).1.fresh
  obtain ⟨blocks, -, rfl⟩ := hs
  refine ⟨fun t ht => absurd ht not_mem_nil, fun hp => ?_⟩
  rw [hst] at hp
  cases hp

lemma timed_run (hs : (s.blocks.map fun b => b.rs.key).Nodup ∧ AllTimed s)
    (h : Runs.Admitted (act cfg) Spares s acts) :
    ((acts.foldl (act cfg) s).blocks.map fun b => b.rs.key).Nodup ∧ AllTimed (acts.foldl (act cfg) s) := by
  refine Runs.induction_admitted (fun s => (s.blocks.map fun b => b.rs.key).Nodup ∧ AllTimed s) ?_ hs h
  intro s a hp ha
  refine ⟨keys_act hp.1, ?_⟩
  cases a with
  | step => exact timed_step hp.1 hp.2
  | close => exact timed_close hp.2 ha

/-- In a run that never closes the server on an open window, a task in flight does nothing later on, or was
started for what is still there. An open window has its task in flight, which closes it. -/
theorem stale_timers_harmless {more : List Act} (hs : Started m bufDefault runtime s)
    (h : Runs.Admitted (act cfg) Spares s acts)
    (h' : Runs.Admitted (act cfg) Spares (acts.foldl (act cfg) s) more) {b' : Block}
    (hb' : b' ∈ (more.foldl (act cfg) (acts.foldl (act cfg) s)).blocks) :
    (∃ b ∈ (acts.foldl (act cfg) s).blocks, b.rs = b'.rs ∧ Aged b.st b'.st ∧
      ∀ t ∈ (acts.foldl (act cfg) s).tasks, t.key = b.rs.key →
        (∀ c g, t.work c b'.rs (b'.work g) = b'.work g) ∨ t.Live b.st ∧ t.Live b'.st) ∧
    (b'.st.pending.isSome = true →
      .window b'.rs.key b'.st.pendingGen ∈ (more.foldl (act cfg) (acts.foldl (act cfg) s)).tasks ∧
      ∀ c g, (windowTask c b'.st.pendingGen b'.rs (b'.work g)).st.pending = none) := by
  have hfst := timed_run ⟨hs.keys_nodup, hs.timed⟩ h
  obtain ⟨b, hb, hrs, ha⟩ := later_run more _ b' hb'
  refine ⟨⟨b, hb, hrs, ha, fun t ht hk => ?_⟩, fun hp => ⟨?_, fun c g => ?_⟩⟩
  · exact (ha.live ((hfst.2 b hb).fits t ht hk)).imp_left fun hover c g => Task.work_of_over hover
  · exact (((timed_run hfst h').2 b' hb').window hp).resolve_left id
  · rw [windowTask, if_pos (show (b'.work g).st.pendingGen = b'.st.pendingGen from rfl), flushPending_pending]

def windowed : State := [.step (setStVal true)].foldl (act sampleConfig) (start (sampleModel windowedBlock) 0 true)

/-- The position changes again within the window, which closes it and opens another. Its task does nothing then. -/
theorem overlapped_task_idle :
    ∃ b ∈ ([.step (setStVal false)].foldl (act sampleConfig) windowed).blocks, b.st.pending.isSome = true ∧
      .window b.rs.key 0 ∈ windowed.tasks ∧ ∀ c g, windowTask c 0 b.rs (b.work g) = b.work g := by
  obtain ⟨b', hb', hp, hg⟩ : ∃ b' ∈ ([.step (setStVal false)].foldl (act sampleConfig) windowed).blocks,
      b'.st.pending.isSome = true ∧ 0 < b'.st.pendingGen := by decide +kernel
  have hopened : Runs.Admitted (act sampleConfig) Spares (start (sampleModel windowedBlock) 0 true)
      [.step (setStVal true)] := ⟨trivial, trivial⟩
  have hchanged : Runs.Admitted (act sampleConfig) Spares windowed [.step (setStVal false)] := ⟨trivial, trivial⟩
  obtain ⟨⟨b, hb, hrs, -, htasks⟩, -⟩ := stale_timers_harmless (started_start _ 0 true) hopened hchanged hb'
  have ht : .window b.rs.key 0 ∈ windowed.tasks :=
    (by decide +kernel : ∀ b ∈ windowed.blocks, Task.window b.rs.key 0 ∈ windowed.tasks) b hb
  refine ⟨b', hb', hp, hrs ▸ ht, (htasks _ ht rfl).resolve_right fun hlv => ?_⟩
  exact absurd hlv.2.1 hg.ne

/-- The server is closed on the open window: the window stays, and the task in flight does not close it. -/
theorem closed_window_left : ∃ b ∈ (act sampleConfig windowed .close).blocks, b.st.pending.isSome = true ∧
      (act sampleConfig windowed .close).tasks = [.window b.rs.key 0] ∧
      ∀ c g, windowTask c 0 b.rs (b.work g) = b.work g := by
  obtain ⟨b, hb, hp, ht, hg⟩ : ∃ b ∈ (act sampleConfig windowed .close).blocks, b.st.pending.isSome = true ∧
      (act sampleConfig windowed .close).tasks = [.window b.rs.key 0] ∧ 0 < b.st.pendingGen := by decide +kernel
  exact ⟨b, hb, hp, ht, fun c g => if_neg hg.ne'⟩

end Iec61850.Server
