import Iec61850.Runs
import Iec61850.Lookup
import Mathlib.Order.Basic

/-! Time-allowed-to-live supervision of a GOOSE subscription. -/
namespace Iec61850.Goose
open List Option AList Table

/-- A message of a control block. -/
structure Heard where
  block : String
  arrival : ℕ
  lifetime : ℕ

def latest (r : String) (heard : List Heard) : Option Heard := heard.find? (·.block = r)

def heardOf (r : String) (heard : List Heard) : ℕ := heard.countP (·.block = r)

/-- A call of `expired`, with what had happened before it. -/
structure Expiry where
  block : String
  time : ℕ
  heard : List Heard
  stopped : Bool

namespace Expiry

def count (e : Expiry) : ℕ := heardOf e.block e.heard

/-- The latest message of the block has outlived its lifetime, and the subscription is not stopped. -/
def Right (e : Expiry) : Prop := (∃ m ∈ latest e.block e.heard, m.arrival + m.lifetime ≤ e.time) ∧ e.stopped = false
deriving Decidable

end Expiry

/-- The supervision thread: it works off the blocks it has collected and looks for new ones, or waits. -/
inductive Watcher where
  | running (due : List String)
  | waiting (till : Option ℕ)
  | ended

namespace Watcher

def notified : Watcher → Watcher
  | .waiting _ => .running []
  | w => w

def due : Watcher → List String
  | .running due => due
  | _ => []

end Watcher

/-- A supervised subscription. A deadline is kept with whether its passing has been collected. -/
structure Supervision where
  now : ℕ := 0
  blocks : Table String (ℕ × Bool) := ∅
  stopped : Bool := false
  watcher : Watcher := .running []
  heard : List Heard := []
  expiries : List Expiry := []

inductive WatchStep where
  | arrived (r : String) (tatl : ℕ)
  | advance (d : ℕ)
  | stop
  /-- The wait of the thread ends. -/
  | wake
  /-- The thread reports the next block it has collected, or else looks. -/
  | proceed

namespace Supervision

def notify (s : Supervision) : Supervision := { s with watcher := s.watcher.notified }

def restart (s : Supervision) (r : String) (tatl : ℕ) : Supervision :=
  { s with heard := ⟨r, s.now, tatl⟩ :: s.heard, blocks := s.blocks.insert r (s.now + tatl, false) }

def isDue (now : ℕ) (d : ℕ × Bool) : Bool := !d.2 && d.1 ≤ now

def dueBlocks (s : Supervision) : List String := (s.blocks.entries.filter fun e => isDue s.now e.2).map (·.1)

def fire (now : ℕ) (d : ℕ × Bool) : ℕ × Bool := (d.1, d.2 || isDue now d)

def next (s : Supervision) : Option ℕ := ((s.blocks.entries.filter fun e => !e.2.2).map (·.2.1)).min?

def look (s : Supervision) : Supervision :=
  if s.stopped then { s with watcher := .ended }
  else if s.dueBlocks.isEmpty then { s with watcher := .waiting s.next }
  else { s with blocks := s.blocks.mapValues (fire s.now), watcher := .running s.dueBlocks }

def report (s : Supervision) (r : String) (rest : List String) : Supervision :=
  { s with watcher := .running rest, expiries := s.expiries ++ [⟨r, s.now, s.heard, s.stopped⟩] }

def step (s : Supervision) : WatchStep → Supervision
  | .arrived r tatl =>
    if tatl = 0 then { s with heard := ⟨r, s.now, tatl⟩ :: s.heard } else (s.restart r tatl).notify
  | .advance d => { s with now := s.now + d }
  | .stop => { s with stopped := true }.notify
  | .wake => s.notify
  | .proceed =>
    match s.watcher with
    | .running [] => s.look
    | .running (r :: rest) => s.report r rest
    | _ => s

def run (s : Supervision) (steps : List WatchStep) : Supervision := steps.foldl step s

def due (s : Supervision) : List String := s.watcher.due

/-- The silence since the latest message of the block has been reported. -/
def Reported (s : Supervision) (r : String) : Prop := ∃ e ∈ s.expiries, e.block = r ∧ e.count = heardOf r s.heard

/-- Nothing overtakes the thread: a message has a lifetime, and comes neither between the collection of its block
and the report nor when the lifetime before is over and the thread has not looked; a stop leaves no report open. -/
def Undisturbed (s : Supervision) : WatchStep → Prop
  | .arrived r tatl => 0 < tatl ∧ r ∉ s.due ∧ ∀ d ∈ s.blocks.lookup r, d.2 = false → s.now ≤ d.1
  | .stop => s.due = []
  | _ => True

/-- A message that ended a silence longer than the lifetime before it came after the report of that silence. -/
def Ended (s : Supervision) : Prop := ∀ n before, n :: before <:+ s.heard → ∀ m ∈ latest n.block before,
  m.arrival + m.lifetime < n.arrival → ∃ e ∈ s.expiries, e.block = n.block ∧ e.count = heardOf n.block before

/-- What holds of an undisturbed subscription. -/
structure Supervised (s : Supervision) : Prop where
  deadlines : ∀ r, (s.blocks.lookup r).map Prod.fst = (latest r s.heard).map fun m => m.arrival + m.lifetime
  collected : ∀ r ∈ s.due, ∃ d ≤ s.now, s.blocks.lookup r = some (d, true)
  nodup : s.due.Nodup
  unstopped : s.stopped = true → s.due = []
  past : ∀ e ∈ s.expiries, e.count ≤ heardOf e.block s.heard
  current : ∀ e ∈ s.expiries, e.count = heardOf e.block s.heard →
    e.block ∉ s.due ∧ ∃ d, s.blocks.lookup e.block = some (d, true)
  reported : ∀ r d, s.blocks.lookup r = some (d, true) → r ∈ s.due ∨ s.Reported r
  ended : s.Ended
  right : ∀ e ∈ s.expiries, e.Right
  once : s.expiries.Pairwise fun a b => a.block = b.block → a.count ≠ b.count
  waits : ∀ till, s.watcher = .waiting till → ∀ r d, s.blocks.lookup r = some (d, false) → ∃ w ∈ till, w ≤ d
  alive : s.watcher = .ended → s.stopped = true

variable {s : Supervision} {r : String} {d : ℕ}

lemma latest_cons (m : Heard) (heard : List Heard) : latest r (m :: heard) = if m.block = r then some m else latest r heard := by
  by_cases h : m.block = r <;> simp [latest, h]

lemma heardOf_cons (m : Heard) (heard : List Heard) :
    heardOf r (m :: heard) = heardOf r heard + if m.block = r then 1 else 0 := by
  by_cases h : m.block = r <;> simp [heardOf, h]

lemma supervised_idle {w : Watcher} (h : s.Supervised) (hdue : s.due = []) (hw : w.due = [])
    (hwt : ∀ till, w = .waiting till → ∀ r d, s.blocks.lookup r = some (d, false) → ∃ w ∈ till, w ≤ d)
    (halive : w = .ended → s.stopped) : { s with watcher := w }.Supervised := by
  have hno (r : String) (hr : r ∈ w.due) : False := by
    rw [hw] at hr
    cases hr
  exact {
    h with
    collected := fun r hr => (hno r hr).elim
    nodup := nodup_iff_sublist.mpr fun r hr => hno r (hr.subset mem_cons_self)
    unstopped := fun _ => hw
    current := fun e he hcnt => ⟨hno e.block, (h.current e he hcnt).2⟩
    reported := fun r d hr => .inr ((h.reported r d hr).resolve_left (hdue ▸ nofun))
    waits := hwt
    alive := halive }

lemma supervised_notify (h : s.Supervised) : s.notify.Supervised := by
  obtain ⟨now, blocks, stopped, watcher, heard, expiries⟩ := s
  cases watcher with
  | waiting till => exact supervised_idle h rfl rfl nofun nofun
  | running due => exact h
  | ended => exact h

lemma notified_due (w : Watcher) : w.notified.due = w.due := by cases w <;> rfl

lemma notified_ne (w : Watcher) (till : Option ℕ) : w.notified ≠ .waiting till := by cases w <;> exact nofun

lemma deadline_of_latest {m : Heard} (h : s.Supervised) (hm : latest r s.heard = some m) :
    ∃ fired, s.blocks.lookup r = some (m.arrival + m.lifetime, fired) := by
  have hdl := h.deadlines r
  rw [hm] at hdl
  obtain ⟨⟨d, fired⟩, hlk, rfl⟩ := map_eq_some_iff.mp hdl
  exact ⟨fired, hlk⟩

lemma ended_restart {tatl : ℕ} (h : s.Supervised) (hr : r ∉ s.due)
    (htime : ∀ d ∈ s.blocks.lookup r, d.2 = false → s.now ≤ d.1) : (s.restart r tatl).Ended := by
  intro n before hn m hm hover
  rcases suffix_cons_iff.mp hn with heq | hn
  · -- the new message: the silence before it has been collected, and so reported
    obtain ⟨rfl, rfl⟩ := cons.inj heq
    obtain ⟨fired, hlk⟩ := deadline_of_latest h hm
    cases fired with
    | false => exact absurd hover (Nat.not_lt.mpr (htime _ hlk rfl))
    | true => exact (h.reported r _ hlk).resolve_left hr
  · exact h.ended n before hn m hm hover

lemma supervised_restart {tatl : ℕ} (h : s.Supervised) (hr : r ∉ s.due)
    (htime : ∀ d ∈ s.blocks.lookup r, d.2 = false → s.now ≤ d.1) (hw : ∀ till, s.watcher ≠ .waiting till) :
    (s.restart r tatl).Supervised := by
  have hself : (s.restart r tatl).blocks.lookup r = some (s.now + tatl, false) := lookup_insert _
  have hoth (r' : String) (hne : r' ≠ r) : (s.restart r tatl).blocks.lookup r' = s.blocks.lookup r' :=
    lookup_insert_ne hne
  have hlatest (r' : String) :
      latest r' (s.restart r tatl).heard = if r = r' then some ⟨r, s.now, tatl⟩ else latest r' s.heard := latest_cons ..
  have hcnt (r' : String) : heardOf r' (s.restart r tatl).heard = heardOf r' s.heard + if r = r' then 1 else 0 :=
    heardOf_cons ..
  exact {
    h with
    deadlines := by
      intro r'
      by_cases hne : r' = r
      · rw [hne, hself, hlatest, if_pos rfl]
        rfl
      · rw [hoth r' hne, hlatest, if_neg (Ne.symm hne)]
        exact h.deadlines r'
    collected := by
      intro r' hr'
      obtain ⟨d, hd, hlk⟩ := h.collected r' hr'
      exact ⟨d, hd, (hoth r' fun heq => hr (heq ▸ hr')).trans hlk⟩
    past := by
      intro e he
      rw [hcnt]
      exact (h.past e he).trans (Nat.le_add_right _ _)
    current := by
      intro e he hsm
      have hne : e.block ≠ r := by
        intro heq
        have hle := h.past e he
        rw [hcnt, if_pos heq.symm] at hsm
        omega
      rw [hcnt, if_neg hne.symm] at hsm
      obtain ⟨hnot, d, hd⟩ := h.current e he hsm
      exact ⟨hnot, d, (hoth _ hne).trans hd⟩
    reported := by
      intro r' d hd
      have hne : r' ≠ r := by
        rintro rfl
        cases hself.symm.trans hd
      apply (h.reported r' d ((hoth r' hne).symm.trans hd)).imp_right
      rintro ⟨e, he, hblock, hsm⟩
      refine ⟨e, he, hblock, ?_⟩
      rw [hcnt, if_neg hne.symm]
      exact hsm
    ended := ended_restart h hr htime
    waits := fun till hwait => absurd hwait (hw till) }

lemma supervised_report {rest : List String} (h : s.Supervised) (hw : s.watcher = .running (r :: rest)) :
    (s.report r rest).Supervised := by
  have hdue : s.due = r :: rest := by rw [due, hw, Watcher.due]
  obtain ⟨hfre, hrs⟩ := nodup_cons.mp (hdue ▸ h.nodup)
  have hsub (r' : String) (hr' : r' ∈ rest) : r' ∈ s.due := hdue ▸ mem_cons_of_mem r hr'
  obtain ⟨d, hpast, hlk⟩ := h.collected r (hdue ▸ mem_cons_self)
  have hnew (e : Expiry) (he : e ∈ s.expiries) (hblock : e.block = r) : e.count ≠ heardOf r s.heard := by
    intro hcnt
    exact (h.current e he (hblock ▸ hcnt)).1 (hblock ▸ hdue ▸ mem_cons_self)
  have hright : Expiry.Right ⟨r, s.now, s.heard, s.stopped⟩ := by
    have hdl := h.deadlines r
    rw [hlk] at hdl
    obtain ⟨m, hm, hmd⟩ := map_eq_some_iff.mp hdl.symm
    refine ⟨⟨m, hm, hmd.le.trans hpast⟩, ?_⟩
    by_contra hstop
    have := h.unstopped (by simpa using hstop)
    rw [hdue] at this
    cases this
  exact {
    deadlines := h.deadlines
    collected := fun r' hr' => h.collected r' (hsub r' hr')
    nodup := hrs
    unstopped := fun hstop => absurd (hdue.symm.trans (h.unstopped hstop)) nofun
    past := forall_mem_append.mpr ⟨h.past, by simp [Expiry.count, report]⟩
    current := by
      refine forall_mem_append.mpr ⟨fun e he hcnt => ?_, ?_⟩
      · exact ⟨fun hin => (h.current e he hcnt).1 (hsub _ hin), (h.current e he hcnt).2⟩
      intro e he _
      cases mem_singleton.mp he
      exact ⟨hfre, d, hlk⟩
    reported := by
      intro r' d' hr'
      have hadd (hold : s.Reported r') :
          ∃ e ∈ s.expiries ++ [⟨r, s.now, s.heard, s.stopped⟩], e.block = r' ∧ e.count = heardOf r' s.heard := by
        obtain ⟨e, he, hsm⟩ := hold
        exact ⟨e, mem_append_left _ he, hsm⟩
      rcases h.reported r' d' hr' with hin | hold
      · rw [hdue] at hin
        rcases mem_cons.mp hin with rfl | hin
        · exact .inr ⟨_, mem_append_right _ mem_cons_self, rfl, rfl⟩
        · exact .inl hin
      · exact .inr (hadd hold)
    ended := by
      intro n before hn m hm hover
      obtain ⟨e, he, hsm⟩ := h.ended n before hn m hm hover
      exact ⟨e, mem_append_left _ he, hsm⟩
    right := forall_mem_append.mpr ⟨h.right, by simpa using hright⟩
    once := by
      refine pairwise_append.mpr ⟨h.once, pairwise_singleton _ _, ?_⟩
      intro a ha b hb hblock
      cases mem_singleton.mp hb
      exact hnew a ha hblock
    waits := nofun
    alive := nofun }

lemma mem_dueBlocks : r ∈ s.dueBlocks ↔ ∃ d, s.blocks.lookup r = some d ∧ isDue s.now d := by
  constructor
  · intro h
    obtain ⟨e, he, rfl⟩ := mem_map.mp h
    obtain ⟨hentry, hdue⟩ := mem_filter.mp he
    exact ⟨e.2, mem_lookup_iff.mpr hentry, hdue⟩
  · rintro ⟨d, hlk, hdue⟩
    exact mem_map.mpr ⟨⟨r, d⟩, mem_filter.mpr ⟨mem_lookup_iff.mp hlk, hdue⟩, rfl⟩

lemma nodup_dueBlocks : s.dueBlocks.Nodup := List.Nodup.sublist (filter_sublist.map Sigma.fst) s.blocks.nodupKeys

lemma next_le (h : s.blocks.lookup r = some (d, false)) : ∃ w ∈ s.next, w ≤ d := by
  have hm : d ∈ (s.blocks.entries.filter fun e => !e.2.2).map (·.2.1) :=
    mem_map.mpr ⟨⟨r, d, false⟩, mem_filter.mpr ⟨mem_lookup_iff.mp h, rfl⟩, rfl⟩
  obtain ⟨w, hw⟩ := isSome_iff_exists.mp (isSome_min?_of_mem hm)
  exact ⟨w, hw, (min?_eq_some_iff.mp hw).2 d hm⟩

lemma lookup_fire {fired : Bool} (h : (s.blocks.mapValues (fire s.now)).lookup r = some (d, fired)) :
    ∃ old, s.blocks.lookup r = some (d, old) ∧ fired = (old || isDue s.now (d, old)) := by
  rw [lookup_mapValues] at h
  obtain ⟨old, hold, heq⟩ := map_eq_some_iff.mp h
  cases heq
  exact ⟨old.2, hold, rfl⟩

lemma supervised_look (h : s.Supervised) (hw : s.watcher = .running []) : s.look.Supervised := by
  have hdue : s.due = [] := by rw [due, hw, Watcher.due]
  have hreported (r : String) (d : ℕ) (hd : s.blocks.lookup r = some (d, true)) : s.Reported r :=
    (h.reported r d hd).resolve_left (hdue ▸ nofun)
  unfold look
  split_ifs with hstop hno
  · exact supervised_idle h hdue rfl nofun fun _ => hstop
  · refine supervised_idle h hdue rfl ?_ nofun
    rintro till ⟨⟩ r d hd
    exact next_le hd
  exact {
    h with
    deadlines := by
      intro r
      rw [← h.deadlines r, lookup_mapValues, Option.map_map]
      rfl
    collected := by
      intro r hr
      obtain ⟨d, hd, hpast⟩ := mem_dueBlocks.mp hr
      obtain ⟨hfre, hle⟩ := (Bool.and_eq_true _ _).mp hpast
      refine ⟨d.1, of_decide_eq_true hle, ?_⟩
      rw [lookup_mapValues, hd, Option.map_some, fire, hpast, Bool.or_true]
    nodup := nodup_dueBlocks
    unstopped := fun hyes => absurd hyes hstop
    current := by
      intro e he hcnt
      obtain ⟨-, d, hd⟩ := h.current e he hcnt
      constructor
      · intro hin
        obtain ⟨d', hd', hpast⟩ := mem_dueBlocks.mp hin
        cases hd.symm.trans hd'
        cases hpast
      refine ⟨d, ?_⟩
      rw [lookup_mapValues, hd]
      rfl
    reported := by
      intro r d hd
      obtain ⟨old, hold, hfired⟩ := lookup_fire hd
      cases old with
      | true => exact .inr (hreported r d hold)
      | false => exact .inl (mem_dueBlocks.mpr ⟨_, hold, hfired.symm⟩)
    waits := nofun
    alive := nofun }

lemma supervised_step {x : WatchStep} (h : s.Supervised) (hx : s.Undisturbed x) : (step s x).Supervised := by
  cases x with
  | arrived r tatl =>
    have hpos : tatl ≠ 0 := by
      have := hx.1
      omega
    rw [step, if_neg hpos]
    have hdue : s.notify.due = s.due := notified_due s.watcher
    exact supervised_restart (supervised_notify h) (hdue ▸ hx.2.1) hx.2.2 (notified_ne _)
  | advance d =>
    refine { h with collected := fun r hr => ?_ }
    obtain ⟨d', hd', hlk⟩ := h.collected r hr
    exact ⟨d', hd'.trans (Nat.le_add_right _ _), hlk⟩
  | stop => exact supervised_notify { h with unstopped := fun _ => hx, alive := fun _ => rfl }
  | wake => exact supervised_notify h
  | proceed =>
    rw [step]
    split
    · next hw => exact supervised_look h hw
    · next r rest hw => exact supervised_report h hw
    · exact h

lemma run_append (s : Supervision) (xs ys : List WatchStep) : run s (xs ++ ys) = run (run s xs) ys := foldl_append

variable {due : List String}

lemma run_due (hw : s.watcher = .running due) : run s (.replicate due.length .proceed) =
      { s with watcher := .running [], expiries := s.expiries ++ due.map (⟨·, s.now, s.heard, s.stopped⟩) } := by
  induction due generalizing s with
  | nil =>
    rw [← hw, map_nil, append_nil]
    rfl
  | cons r rest ih =>
    have hstep : step s .proceed = s.report r rest := by rw [step, hw]
    have hrun : run s (.replicate (rest.length + 1) .proceed) = run (s.report r rest) (.replicate rest.length .proceed) := by
      rw [← hstep]
      rfl
    rw [length_cons, hrun, ih rfl]
    simp [report]

lemma reported_due (hw : s.watcher = .running due) (hr : r ∈ due) :
    (run s (.replicate due.length .proceed)).Reported r := by
  rw [run_due hw]
  exact ⟨_, mem_append_right _ (mem_map_of_mem hr), rfl, rfl⟩

lemma overdue_reported {m : Heard} (h : s.Supervised) (hop : s.stopped = false) (hm : latest r s.heard = some m)
    (hover : m.arrival + m.lifetime ≤ s.now) : ∃ n, (run s (.wake :: .replicate n .proceed)).Reported r := by
  have hn : s.notify.Supervised := supervised_notify h
  obtain ⟨due, hw⟩ : ∃ due, s.notify.watcher = .running due := by
    cases hw : s.notify.watcher with
    | running due => exact ⟨due, rfl⟩
    | waiting till => exact absurd hw (notified_ne _ till)
    | ended => exact absurd ((hn.alive hw).symm.trans hop) nofun
  have hrun (n : ℕ) : run s (.wake :: .replicate n .proceed) = run s.notify (.replicate n .proceed) := rfl
  obtain ⟨fired, hlk⟩ := deadline_of_latest h hm
  cases fired with
  | true =>
    refine ⟨due.length, ?_⟩
    rw [hrun]
    rcases hn.reported r _ hlk with hin | ⟨e, he, hsm⟩
    · exact reported_due hw (by simpa [Supervision.due, hw, Watcher.due] using hin)
    · rw [run_due hw]
      exact ⟨e, mem_append_left _ he, hsm⟩
  | false =>
    -- the thread is through with what it had collected, looks, and finds the block
    have hdone := run_due hw
    generalize ht : run s.notify (.replicate due.length .proceed) = t at hdone
    have hdue : r ∈ t.dueBlocks := by
      rw [hdone, mem_dueBlocks]
      exact ⟨_, hlk, decide_eq_true hover⟩
    have hlook : (step t .proceed).watcher = .running t.dueBlocks := by
      have hrunning : t.watcher = .running [] := by rw [hdone]
      have hstill : t.stopped = false := by rw [hdone]; exact hop
      have hsome : t.dueBlocks.isEmpty = false := isEmpty_eq_false_iff.mpr (ne_nil_of_mem hdue)
      rw [step, hrunning, look, hstill, hsome]
      rfl
    refine ⟨due.length + (t.dueBlocks.length + 1), ?_⟩
    rw [hrun, replicate_add, run_append, ht]
    exact reported_due hlook hdue

/-- In every undisturbed run, `expired` is called for a block only when its latest message has outlived
its lifetime and before the subscription is stopped, and at most once between two messages. A message that ends a
longer silence comes after its report; of the silence that goes on, the thread, until it is stopped, is not left waiting
beyond it, and reports it with its next steps. -/
theorem supervision_right (steps : List WatchStep) (h : Runs.Admitted step Undisturbed {} steps) :
    (∀ e ∈ (run {} steps).expiries, e.Right) ∧
      ((run {} steps).expiries.Pairwise fun a b => a.block = b.block → a.count ≠ b.count) ∧ (run {} steps).Ended ∧
      ∀ r m, (run {} steps).stopped = false → latest r (run {} steps).heard = some m →
        m.arrival + m.lifetime ≤ (run {} steps).now →
        (∀ till, (run {} steps).watcher = .waiting till → (run {} steps).Reported r ∨ ∃ w ∈ till, w ≤ (run {} steps).now) ∧
        ∃ n, (run {} (steps ++ .wake :: .replicate n .proceed)).Reported r := by
  have hinit : Supervised {} :=
    { deadlines := fun _ => rfl, collected := nofun, nodup := .nil, unstopped := nofun, past := nofun, current := nofun
      reported := nofun, ended := by simp [Ended], right := nofun, once := .nil, waits := nofun, alive := nofun }
  have hrun : (run {} steps).Supervised := Runs.induction_admitted Supervised (fun _ _ => supervised_step) hinit h
  refine ⟨hrun.right, hrun.once, hrun.ended, fun r m hop hm hover => ⟨fun till hwait => ?_, ?_⟩⟩
  · obtain ⟨fired, hlk⟩ := deadline_of_latest hrun hm
    cases fired with
    | true =>
      left
      apply (hrun.reported r _ hlk).resolve_left
      rw [due, hwait]
      nofun
    | false =>
      obtain ⟨w, hw, hle⟩ := hrun.waits till hwait r _ hlk
      exact .inr ⟨w, hw, hle.trans hover⟩
  · obtain ⟨n, hn⟩ := overdue_reported hrun hop hm hover
    refine ⟨n, ?_⟩
    rw [run_append]
    exact hn

def silent : List WatchStep :=
  [.arrived "gcb01" 5, .proceed, .advance 6, .wake, .proceed, .proceed, .arrived "gcb01" 5]

/-- A block falls silent and is reported before its next message. -/
theorem supervision_right_once :
    (run {} silent).expiries.length = 1 ∧ (∀ e ∈ (run {} silent).expiries, e.Right) ∧ (run {} silent).Ended := by
  have hfst : Undisturbed {} (.arrived "gcb01" 5) := ⟨by decide, nofun, nofun⟩
  have hnx : Undisturbed (run {} silent.dropLast) (.arrived "gcb01" 5) := by
    refine ⟨by decide, ?_⟩
    decide +kernel
  have h := supervision_right silent ⟨hfst, trivial, trivial, trivial, trivial, trivial, hnx, trivial⟩
  exact ⟨by decide +kernel, h.1, h.2.2.1⟩

/-- A message, or a stop, comes between the collection of a block and its report, which is wrong; the silence
after the message is reported again, and a report follows the stop. A message that comes before the thread looks ends
a silence that nobody is told of. -/
theorem late_reports :
    (∃ e ∈ (run {} [.arrived "gcb01" 5, .advance 5, .proceed, .arrived "gcb01" 5, .proceed]).expiries, ¬e.Right) ∧
    ((run {} [.arrived "gcb01" 5, .advance 5, .proceed, .arrived "gcb01" 5, .proceed, .advance 5, .proceed,
      .proceed]).expiries.map fun e => (e.block, e.count)) = [("gcb01", 2), ("gcb01", 2)] ∧
    (∃ e ∈ (run {} [.arrived "gcb01" 5, .advance 5, .proceed, .stop, .proceed]).expiries, e.stopped = true) ∧
    (run {} [.arrived "gcb01" 5, .proceed, .advance 60, .arrived "gcb01" 5, .proceed]).expiries.length = 0 := by
  decide +kernel

end Supervision
end Iec61850.Goose
