import Iec61850.MmsDecode
import Iec61850.Runs
import Iec61850.Lookup

/-! A GOOSE publisher, its frames on the wire, and the sequence tracking of a subscriber. -/
namespace Iec61850.Goose
open Asn1 Mms

def headerLen : ℕ := 8
def maxPayload : ℕ := 1500
def pduTag : Tag := ⟨.application, true, 1⟩
def defaultQuality : UInt8 := 0x80 ||| 10

/-- A GOOSE message. The anomalies that a subscriber notes are not part of it. -/
structure Message where
  goCbRef : String := ""
  datSet : String := ""
  goId : String := ""
  timeAllowedToLive : UInt32 := 0
  t : Option SystemTime := none
  stNum : UInt32 := 0
  sqNum : UInt32 := 0
  confRev : UInt32 := 0
  test : Bool := false
  ndsCom : Bool := false
  numDatSetEntries : UInt32 := 0
  values : List Value := []
  appId : UInt16 := 0
  timeQuality : Option UInt8 := none

def utcTimeOctets (t : SystemTime) (q : UInt8) : List UInt8 :=
  let (secs, nanos) := TimeUtil.unixParts t
  beOctets (secs % 2 ^ 32) 4 ++ beOctets (nanos * 2 ^ 24 / 1000000000 : ℕ) 3 ++ [q]

namespace Message

def timeOctets (m : Message) : List UInt8 :=
  match m.t with
  | some t => utcTimeOctets t (m.timeQuality.getD defaultQuality)
  | none => List.replicate 8 0

def fields (m : Message) : List Element :=
  [prim (contextPrimitive 0) (Text.octets m.goCbRef),
   uintElem (contextPrimitive 1) m.timeAllowedToLive.toUInt64,
   prim (contextPrimitive 2) (Text.octets m.datSet),
   prim (contextPrimitive 3) (Text.octets m.goId),
   prim (contextPrimitive 4) m.timeOctets,
   uintElem (contextPrimitive 5) m.stNum.toUInt64,
   uintElem (contextPrimitive 6) m.sqNum.toUInt64,
   boolElem (contextPrimitive 7) m.test,
   uintElem (contextPrimitive 8) m.confRev.toUInt64,
   boolElem (contextPrimitive 9) m.ndsCom,
   uintElem (contextPrimitive 10) m.numDatSetEntries.toUInt64,
   cons (contextConstructed 11) (dataElements m.values)]

def pdu (m : Message) : Element := cons pduTag m.fields

def marshal (m : Message) : List UInt8 :=
  beOctets m.appId.toNat 2 ++ beOctets (headerLen + m.pdu.size : ℕ) 2 ++ [0, 0, 0, 0] ++ m.pdu.encode

def again (m : Message) (sqNum timeAllowedToLive : UInt32) : Message := { m with sqNum, timeAllowedToLive }

section Size
open Element

lemma fields_low (m : Message) : AllLows m.fields := by
  have hcons : (cons (contextConstructed 11) (dataElements m.values)).AllLow := cons_low (by decide) (dataElements_low _)
  exact ⟨prim_low (by decide) _, prim_low (by decide) _, prim_low (by decide) _, prim_low (by decide) _,
    prim_low (by decide) _, prim_low (by decide) _, prim_low (by decide) _, prim_low (by decide) _,
    prim_low (by decide) _, prim_low (by decide) _, prim_low (by decide) _, hcons, trivial⟩

lemma length_marshal (m : Message) : m.marshal.length = headerLen + m.pdu.size := by
  have hlow : m.pdu.AllLow := cons_low (by decide) m.fields_low
  simp only [marshal, List.length_append, length_beOctets, length_encode m.pdu hlow, List.length_cons, List.length_nil,
    headerLen]

lemma uintSize_le (v : UInt32) : uintSize v.toUInt64.toNat 9 ≤ uintSize (0xffffffff : UInt32).toUInt64.toNat 9 := by
  have hmax : uintSize (0xffffffff : UInt32).toUInt64.toNat 9 = 5 := by decide
  have hlt : v.toUInt64.toNat < 2 ^ 32 := by
    exact v.toNat_lt
  generalize v.toUInt64.toNat = n at hlt
  rw [hmax]
  unfold uintSize uintSize uintSize uintSize uintSize
  split
  · omega
  split
  · omega
  split
  · omega
  split
  · omega
  rw [if_pos (by omega)]

lemma lengthSize_mono {a b : ℕ} (h : a ≤ b) : lengthSize a ≤ lengthSize b := by
  unfold lengthSize
  split_ifs <;> omega

lemma size_uintElem_le (n : ℕ) (v : UInt32) :
    (uintElem (contextPrimitive n) v.toUInt64).size ≤ (uintElem (contextPrimitive n) (0xffffffff : UInt32).toUInt64).size := by
  have hsz := uintSize_le v
  have hlength := lengthSize_mono hsz
  simp only [uintElem, prim, Element.size, length_beOctets]
  omega

lemma length_again_le (m : Message) (sq tatl : UInt32) :
    (m.again sq tatl).marshal.length ≤ (m.again 0xffffffff 0xffffffff).marshal.length := by
  have htatl := size_uintElem_le 1 tatl
  have hsq := size_uintElem_le 6 sq
  have hfields : sizes (m.again sq tatl).fields ≤ sizes (m.again 0xffffffff 0xffffffff).fields := by
    simp only [fields, again, sizes_cons, timeOctets]
    omega
  have hlength := lengthSize_mono hfields
  rw [length_marshal, length_marshal]
  simp only [pdu, cons, Element.size]
  omega

end Size
end Message

def millis (n : ℕ) : ℕ := n * 1000000

def defaultRetrans : List ℕ := [4, 8, 16, 32, 64, 128, 256, 512, 1000].map millis

/-- The control block on the wire. The addresses, which every frame repeats, are left out. -/
structure PublisherConfig where
  appId : UInt16 := 0
  goCbRef : String := ""
  datSet : String := ""
  goId : String := ""
  confRev : UInt32 := 0
  /-- The intervals after a state change in nanoseconds; the last repeats. -/
  retrans : List ℕ := []
  test : Bool := false
  ndsCom : Bool := false
  timeQuality : Option UInt8 := none

structure Shared where
  cfg : PublisherConfig
  retrans : List ℕ
  positive : ∀ d ∈ retrans, 0 < d

namespace Shared

def new (cfg : PublisherConfig) : Except String Shared :=
  let retrans := if cfg.retrans.isEmpty then defaultRetrans else cfg.retrans
  if cfg.goCbRef.isEmpty then .error "go_cb_ref is required"
  else if h : ∀ d ∈ retrans, 0 < d then
    .ok ⟨{ cfg with goId := if cfg.goId.isEmpty then cfg.goCbRef else cfg.goId }, retrans, h⟩
  else .error "retransmission interval 0ns is not positive"

def interval (sh : Shared) (n : ℕ) : ℕ := sh.retrans.getD (min n (sh.retrans.length - 1)) 0

def tatl (sh : Shared) (n : ℕ) : UInt32 := UInt32.ofNat (min (max (2 * (sh.interval n / 1000000)) 1) (2 ^ 32 - 1))

end Shared

/-- The state being advertised. The generation counts the announcements. -/
structure PubState where
  stNum : UInt32 := 0
  sqNum : UInt32 := 0
  test : Bool := false
  ndsCom : Bool := false
  t : Option SystemTime := none
  generation : ℕ := 0

def nextNum (n : UInt32) : UInt32 := max (n + 1) 1

/-- A call of `publish`, or of `refresh` when it announces no change. -/
structure Request where
  values : List Value
  change : Bool

namespace PubState

def message (sh : Shared) (st : PubState) (req : Request) (now : SystemTime) : Message :=
  { goCbRef := sh.cfg.goCbRef
    datSet := sh.cfg.datSet
    goId := sh.cfg.goId
    timeAllowedToLive := sh.tatl 0
    t := some (if req.change then now else st.t.getD now)
    stNum := if req.change then nextNum st.stNum else if st.stNum = 0 then 1 else st.stNum
    sqNum := 0
    confRev := sh.cfg.confRev
    test := st.test
    ndsCom := st.ndsCom
    numDatSetEntries := UInt32.ofNat req.values.length
    values := req.values
    appId := sh.cfg.appId
    timeQuality := sh.cfg.timeQuality }

def Fits (m : Message) : Prop := (m.again 0xffffffff 0xffffffff).marshal.length ≤ maxPayload
deriving Decidable

end PubState

inductive Phase where
  | sleeping
  /-- Past its wait. -/
  | woken
  /-- Past its look at the closed flag. -/
  | checked
  | ended
deriving DecidableEq

/-- A retransmission task. An abort ends it at its next wait. -/
structure Task where
  msg : Message
  generation : ℕ
  round : ℕ := 0
  phase : Phase := .sleeping
  aborted : Bool := false

inductive Turn where
  | announced (msg : Message)
  | sent (msg : Message)

/-- A frame that the interface took: the number of its transmission, and how many state changes there had been. -/
structure SentFrame where
  msg : Message
  round : ℕ
  changes : ℕ

/-- A publisher with its calls and tasks. `changes` counts the state changes, `returned` tells that a call of
`close` has returned. -/
structure Publishing where
  st : PubState := {}
  closed : Bool := false
  waiting : List Request := []
  turn : Option Turn := none
  tasks : List Task := []
  handle : Option ℕ := none
  returned : Bool := false
  wire : List SentFrame := []
  changes : ℕ := 0

inductive PubStep where
  /-- A call looks at the closed flag. -/
  | call (req : Request)
  | start (k : ℕ) (now : SystemTime)
  | announce (ok : Bool)
  | spawn
  | setTest (on : Bool)
  | setNdsCom (on : Bool)
  | close
  | finish
  | wake (id : ℕ)
  /-- A task looks at the closed flag. -/
  | check (id : ℕ)
  /-- A task repeats its frame under the state lock unless it is superseded; the write may fail. -/
  | transmit (id : ℕ) (ok : Bool)

namespace Publishing
variable (sh : Shared)

def abortTask (s : Publishing) : List Task :=
  match s.handle with
  | some id => s.tasks.modify id fun task => { task with aborted := true }
  | none => s.tasks

lemma length_abortTask (s : Publishing) : s.abortTask.length = s.tasks.length := by
  unfold abortTask
  split
  · exact List.length_modify ..
  · rfl

variable {s : Publishing} {task : Task}

lemma abortTask_cases {j : ℕ} (h : s.abortTask[j]? = some task) :
    ∃ old, s.tasks[j]? = some old ∧ task = { old with aborted := task.aborted } := by
  unfold abortTask at h
  split at h
  · rcases ListIndex.modify_cases h with ⟨rfl, old, hold, rfl⟩ | ⟨-, hold⟩
    · exact ⟨old, hold, rfl⟩
    · exact ⟨task, hold, rfl⟩
  · exact ⟨task, h, rfl⟩

lemma mem_abortTask (h : task ∈ s.abortTask) : ∃ old ∈ s.tasks, task = { old with aborted := task.aborted } := by
  obtain ⟨j, hj⟩ := List.mem_iff_getElem?.mp h
  obtain ⟨old, hold, hsm⟩ := abortTask_cases hj
  exact ⟨old, List.mem_of_getElem? hold, hsm⟩

def setTask (s : Publishing) (id : ℕ) (task : Task) : Publishing := { s with tasks := s.tasks.set id task }

def begin (req : Request) (now : SystemTime) (s : Publishing) : Publishing :=
  let msg := s.st.message sh req now
  if PubState.Fits msg then
    { s with
      st := { s.st with stNum := msg.stNum, sqNum := 0, t := msg.t, generation := s.st.generation + 1 }
      turn := some (.announced msg)
      changes := if req.change ∨ s.st.stNum = 0 then s.changes + 1 else s.changes }
  else s

def write (msg : Message) (round : ℕ) (s : Publishing) : Publishing := { s with wire := s.wire ++ [⟨msg, round, s.changes⟩] }

def nextMsg (task : Task) : Message := task.msg.again (nextNum task.msg.sqNum) (sh.tatl (task.round + 1))

def repeatFrame (id : ℕ) (task : Task) (ok : Bool) (s : Publishing) : Publishing :=
  let msg := nextMsg sh task
  if s.st.generation ≠ task.generation then s.setTask id { task with phase := .ended }
  else
    let s := { s with st := { s.st with sqNum := msg.sqNum } }
    if ok then (s.write msg (task.round + 1)).setTask id { task with msg, round := task.round + 1, phase := .sleeping }
    else s.setTask id { task with phase := .ended }

def onTask (s : Publishing) (id : ℕ) (phase : Phase) (f : Task → Publishing) : Publishing :=
  match s.tasks[id]? with
  | some task => if task.phase = phase then f task else s
  | none => s

def step (s : Publishing) : PubStep → Publishing
  | .call req => if s.closed then s else { s with waiting := s.waiting ++ [req] }
  | .start k now =>
    match s.turn, s.waiting[k]? with
    | none, some req => { s with waiting := s.waiting.eraseIdx k }.begin sh req now
    | _, _ => s
  | .announce ok =>
    match s.turn with
    | some (.announced msg) => if ok then { s with turn := some (.sent msg) }.write msg 0 else { s with turn := none }
    | _ => s
  | .spawn =>
    match s.turn with
    | some (.sent msg) =>
      { s with
        turn := none
        tasks := s.abortTask ++ [{ msg, generation := s.st.generation }]
        handle := some s.tasks.length }
    | _ => s
  | .setTest on => { s with st := { s.st with test := on } }
  | .setNdsCom on => { s with st := { s.st with ndsCom := on } }
  | .close => { s with closed := true }
  | .finish =>
    if s.closed ∧ s.turn.isNone then { s with tasks := s.abortTask, handle := none, returned := true } else s
  | .wake id => s.onTask id .sleeping fun task => if task.aborted then s else s.setTask id { task with phase := .woken }
  | .check id =>
    s.onTask id .woken fun task => s.setTask id { task with phase := if s.closed then .ended else .checked }
  | .transmit id ok => s.onTask id .checked fun task => s.repeatFrame sh id task ok

def run (s : Publishing) (steps : List PubStep) : Publishing := steps.foldl (step sh) s

def init : Publishing := { st := { test := sh.cfg.test, ndsCom := sh.cfg.ndsCom } }

variable {sh} {s : Publishing} {x : PubStep}

inductive Move (sh : Shared) (s : Publishing) : PubStep → Publishing → Prop where
  | stay {x : PubStep} : Move sh s x s
  | called {req : Request} (isOpen : s.closed = false) : Move sh s (.call req) { s with waiting := s.waiting ++ [req] }
  | refused {k : ℕ} {now : SystemTime} (turn : s.turn = none) :
      Move sh s (.start k now) { s with waiting := s.waiting.eraseIdx k }
  | begun {k : ℕ} {now : SystemTime} {req : Request} (turn : s.turn = none) (asked : s.waiting[k]? = some req)
      (fits : PubState.Fits (s.st.message sh req now)) :
      Move sh s (.start k now) ({ s with waiting := s.waiting.eraseIdx k }.begin sh req now)
  | announced {msg : Message} (turn : s.turn = some (.announced msg)) :
      Move sh s (.announce true) ({ s with turn := some (.sent msg) }.write msg 0)
  | lost {msg : Message} (turn : s.turn = some (.announced msg)) : Move sh s (.announce false) { s with turn := none }
  | spawned {msg : Message} (turn : s.turn = some (.sent msg)) :
      Move sh s .spawn
        { s with turn := none, tasks := s.abortTask ++ [{ msg, generation := s.st.generation }], handle := some s.tasks.length }
  | flagged {x : PubStep} (test ndsCom : Bool) : Move sh s x { s with st := { s.st with test, ndsCom } }
  | closed : Move sh s .close { s with closed := true }
  | finished (closed : s.closed = true) (turn : s.turn = none) :
      Move sh s .finish { s with tasks := s.abortTask, handle := none, returned := true }
  | woken {id : ℕ} {task : Task} (at_ : s.tasks[id]? = some task) (phase : task.phase = .sleeping)
      (kept : task.aborted = false) : Move sh s (.wake id) (s.setTask id { task with phase := .woken })
  | checked {id : ℕ} {task : Task} (at_ : s.tasks[id]? = some task) (phase : task.phase = .woken) :
      Move sh s (.check id) (s.setTask id { task with phase := if s.closed then .ended else .checked })
  | superseded {id : ℕ} {task : Task} {ok : Bool} (at_ : s.tasks[id]? = some task) (phase : task.phase = .checked)
      (newer : s.st.generation ≠ task.generation) : Move sh s (.transmit id ok) (s.setTask id { task with phase := .ended })
  | repeated {id : ℕ} {task : Task} (at_ : s.tasks[id]? = some task) (phase : task.phase = .checked)
      (current : s.st.generation = task.generation) :
      Move sh s (.transmit id true)
        (({ s with st.sqNum := (nextMsg sh task).sqNum }.write (nextMsg sh task) (task.round + 1)).setTask id
          { task with msg := nextMsg sh task, round := task.round + 1, phase := .sleeping })
  | dropped {id : ℕ} {task : Task} (at_ : s.tasks[id]? = some task) (phase : task.phase = .checked)
      (current : s.st.generation = task.generation) :
      Move sh s (.transmit id false)
        ({ s with st.sqNum := (nextMsg sh task).sqNum }.setTask id { task with phase := .ended })

lemma onTask_cases {P : Publishing → Prop} {id : ℕ} {phase : Phase} {f : Task → Publishing} (hs : P s)
    (hf : ∀ task, s.tasks[id]? = some task → task.phase = phase → P (f task)) : P (s.onTask id phase f) := by
  unfold onTask
  split
  next task htask =>
    split
    · next hph => exact hf task htask hph
    · exact hs
  · exact hs

lemma move_step (sh : Shared) (s : Publishing) (x : PubStep) : Move sh s x (step sh s x) := by
  cases x with
  | call req =>
    rw [step]
    split
    · exact .stay
    · next h => exact .called (by simpa using h)
  | start k now =>
    rw [step]
    split
    next req hturn hreq =>
      by_cases hfits : PubState.Fits (s.st.message sh req now)
      · exact .begun hturn hreq hfits
      · rw [begin, if_neg hfits]
        exact .refused hturn
    · exact .stay
  | announce ok =>
    rw [step]
    split
    next msg hturn =>
      cases ok with
      | true => exact .announced hturn
      | false => exact .lost hturn
    · exact .stay
  | spawn =>
    rw [step]
    split
    · next msg hturn => exact .spawned hturn
    · exact .stay
  | setTest on => exact .flagged on s.st.ndsCom
  | setNdsCom on => exact .flagged s.st.test on
  | close => exact .closed
  | finish =>
    rw [step]
    split
    · next h => exact .finished h.1 (Option.isNone_iff_eq_none.mp h.2)
    · exact .stay
  | wake id =>
    apply onTask_cases .stay
    intro task htask hph
    split
    · exact .stay
    · next h => exact .woken htask hph (by simpa using h)
  | check id => exact onTask_cases .stay fun task htask hph => .checked htask hph
  | transmit id ok =>
    apply onTask_cases .stay
    intro task htask hph
    by_cases hgen : s.st.generation = task.generation
    · rw [repeatFrame, if_neg (not_not_intro hgen)]
      cases ok with
      | true => exact .repeated htask hph hgen
      | false => exact .dropped htask hph hgen
    · rw [repeatFrame, if_pos hgen]
      exact .superseded htask hph hgen

end Publishing

open List

def maxRetransSteps : ℕ := 16

/-- The intervals below the maximum, of which `left` more may be pushed. -/
def doubling : (left d maxMs : ℕ) → List ℕ
  | 0, _, _ => []
  | left + 1, d, maxMs => if d < maxMs then d :: doubling left (2 * d) maxMs else []

def retransFromScl (minTime maxTime : UInt32) : List ℕ :=
  if minTime = 0 ∧ maxTime = 0 then defaultRetrans
  else
    let minMs := if minTime = 0 then max (maxTime.toNat / 64) 1 else minTime.toNat
    let maxMs := max maxTime.toNat minMs
    (doubling maxRetransSteps minMs maxMs ++ [maxMs]).map millis

/-- What the two times ask for: intervals that double from the one to the other. -/
structure Schedule (minTime maxTime : UInt32) (out : List ℕ) : Prop where
  nonempty : out ≠ []
  increasing : out.Pairwise (· < ·)
  positive : ∀ d ∈ out, 0 < d
  first : minTime ≠ 0 → out.head? = some (millis minTime.toNat)
  bounded : ∀ d ∈ out, d ≤ millis (max minTime.toNat maxTime.toNat)
  last : out.getLast? = some (millis (max minTime.toNat maxTime.toNat))
  doubles : out.IsChain fun a b => b ≤ 2 * a

variable {left d m : ℕ}

lemma mem_doubling {x : ℕ} (h : x ∈ doubling left d m) : d ≤ x ∧ x < m := by
  induction left generalizing d with
  | zero => cases h
  | succ left ih =>
    unfold doubling at h
    split at h
    · rcases mem_cons.mp h with rfl | h
      · exact ⟨le_rfl, by assumption⟩
      · have := ih h
        omega
    · cases h

lemma pairwise_doubling (hd : 0 < d) : (doubling left d m ++ [m]).Pairwise (· < ·) := by
  rw [pairwise_append]
  refine ⟨?_, pairwise_singleton _ _, ?_⟩
  · induction left generalizing d with
    | zero => exact .nil
    | succ left ih =>
      unfold doubling
      split
      · refine .cons (fun x hx => ?_) (ih (by omega))
        have := mem_doubling hx
        omega
      · exact .nil
  · intro x hx y hy
    rw [mem_singleton.mp hy]
    exact (mem_doubling hx).2

lemma chain_doubling_iff : (d :: (doubling left (2 * d) m ++ [m])).IsChain (fun a b => b ≤ 2 * a) ↔
    m ≤ 2 ^ (left + 1) * d := by
  induction left generalizing d with
  | zero => simp [doubling]
  | succ left ih =>
    rw [pow_succ, Nat.mul_assoc]
    unfold doubling
    split
    · rw [cons_append, isChain_cons_cons, ih]
      simp
    next hle =>
      have hdouble : m ≤ 2 * d := by omega
      have hpow : 2 * d ≤ 2 ^ (left + 1) * (2 * d) := Nat.le_mul_of_pos_left _ (by positivity)
      simp only [nil_append, isChain_cons_cons, isChain_singleton, and_true]
      omega

lemma doubling_first_iff (hd : 0 < d) (hm : d ≤ m) : (doubling maxRetransSteps d m ++ [m]).head? = some d ∧
    ((doubling maxRetransSteps d m ++ [m]).IsChain (fun a b => b ≤ 2 * a) ↔ m ≤ 2 ^ 16 * d) := by
  unfold maxRetransSteps doubling
  split
  · exact ⟨rfl, chain_doubling_iff⟩
  · obtain rfl : d = m := by omega
    refine ⟨rfl, fun _ => by omega, fun _ => isChain_singleton _⟩

lemma retransFromScl_eq {minTime maxTime : UInt32} (h : ¬ (minTime = 0 ∧ maxTime = 0)) :
    ∃ d m, retransFromScl minTime maxTime = (doubling maxRetransSteps d m ++ [m]).map millis ∧ 0 < d ∧ d ≤ m ∧
      m = max minTime.toNat maxTime.toNat ∧ (minTime ≠ 0 → d = minTime.toNat) ∧
      (m ≤ 2 ^ 16 * d ↔ minTime = 0 ∨ maxTime.toNat ≤ 2 ^ 16 * minTime.toNat) := by
  have hz {t : UInt32} : t ≠ 0 ↔ 0 < t.toNat := by
    rw [Nat.pos_iff_ne_zero, ne_eq, ne_eq, ← UInt32.toNat_inj]
    rfl
  refine ⟨_, _, if_neg h, ?_⟩
  by_cases hmin : minTime = 0
  · have hmax : 0 < maxTime.toNat := hz.mp fun hmax => h ⟨hmin, hmax⟩
    simp only [hmin, if_true, UInt32.toNat_zero, true_or, iff_true]
    refine ⟨by omega, by omega, by omega, fun hne => absurd rfl hne, by omega⟩
  have hpos : 0 < minTime.toNat := hz.mp hmin
  simp only [hmin, if_false, false_or]
  refine ⟨hpos, by omega, by omega, fun _ => trivial, by omega⟩

end Iec61850.Goose

namespace Iec61850.Goose.Publishing
open List Runs
variable {sh : Shared} {s s' : Publishing} {x : PubStep}

structure Quiet (s : Publishing) : Prop where
  calls : s.waiting = []
  turn : s.turn = none
  tasks : ∀ task ∈ s.tasks, task.phase ≠ .checked

lemma quiet_move (hm : Move sh s x s') (hc : s.closed) (h : s.Quiet) : s'.closed ∧ s'.Quiet ∧ s'.wire = s.wire := by
  have hset (id : ℕ) (task : Task) (hph : task.phase ≠ .checked) : (s.setTask id task).Quiet := by
    refine ⟨h.calls, h.turn, ?_⟩
    intro other hoth
    rcases mem_or_eq_of_mem_set hoth with hold | rfl
    · exact h.tasks other hold
    · exact hph
  cases hm with
  | stay => exact ⟨hc, h, rfl⟩
  | called isOpen => rw [hc] at isOpen; cases isOpen
  | refused turn => exact ⟨hc, ⟨by rw [h.calls]; rfl, h.turn, h.tasks⟩, rfl⟩
  | begun turn asked => rw [h.calls] at asked; cases asked
  | announced turn | lost turn | spawned turn => rw [h.turn] at turn; cases turn
  | flagged test ndsCom => exact ⟨hc, ⟨h.calls, h.turn, h.tasks⟩, rfl⟩
  | closed => exact ⟨rfl, ⟨h.calls, h.turn, h.tasks⟩, rfl⟩
  | finished closed turn =>
    refine ⟨hc, ⟨h.calls, h.turn, ?_⟩, rfl⟩
    intro task htask
    obtain ⟨old, hold, hsm⟩ := mem_abortTask htask
    rw [hsm]
    exact h.tasks old hold
  | woken at_ phase kept => exact ⟨hc, hset _ _ (by simp), rfl⟩
  | checked at_ phase => exact ⟨hc, hset _ _ (by simp [hc]), rfl⟩
  | superseded at_ phase | repeated at_ phase | dropped at_ phase =>
    exact absurd phase (h.tasks _ (mem_of_getElem? at_))

/-- A call of `close` returns only when nobody is past its look at the flag. -/
def ClosesQuiet (s : Publishing) (x : PubStep) : Prop := x = .finish → s.closed = true → s.turn = none → s.Quiet

def Silent (s : Publishing) : Prop := s.returned = true → s.closed = true ∧ s.Quiet

lemma returned_move (hm : Move sh s x s') (h : s'.returned) :
    s.returned ∨ x = .finish ∧ s.closed ∧ s.turn = none := by
  cases hm with
  | finished closed turn => exact .inr ⟨rfl, closed, turn⟩
  | begun turn asked fits =>
    rw [begin, if_pos fits] at h
    exact .inl h
  | stay | called | refused | announced | lost | spawned | flagged | closed | woken | checked | superseded | repeated
  | dropped => exact .inl h

lemma silent_step (h : s.Silent) (hx : s.ClosesQuiet x) : (step sh s x).Silent := by
  intro hreturned
  have hmove := move_step sh s x
  have hnow : s.closed ∧ s.Quiet := by
    rcases returned_move hmove hreturned with hold | ⟨hfinish, hcl, hturn⟩
    · exact h hold
    · exact ⟨hcl, hx hfinish hcl hturn⟩
  obtain ⟨hcl, hquiet, -⟩ := quiet_move hmove hnow.1 hnow.2
  exact ⟨hcl, hquiet⟩

lemma wire_run_quiet (hc : s.closed) (h : s.Quiet) (steps : List PubStep) : (run sh s steps).wire = s.wire := by
  let Inv (t : Publishing) : Prop := t.closed ∧ t.Quiet ∧ t.wire = s.wire
  have hstep (t : Publishing) (y : PubStep) (ht : Inv t) : Inv (step sh t y) := by
    obtain ⟨hcl, hquiet, hsm⟩ := quiet_move (move_step sh t y) ht.1 ht.2.1
    exact ⟨hcl, hquiet, hsm.trans ht.2.2⟩
  exact (invariant Inv hstep ⟨hc, h, rfl⟩ steps).2.2

/-- In every run in which calls of `close` return only when nobody is past its look at the flag, no frame is written
after one of them has returned. -/
theorem closed_silent (sh : Shared) (before after : List PubStep)
    (hmeets : Runs.Admitted (step sh) ClosesQuiet (init sh) before)
    (hreturned : (run sh (init sh) before).returned = true) :
    (run sh (init sh) (before ++ after)).wire = (run sh (init sh) before).wire := by
  have hsilent : (run sh (init sh) before).Silent :=
    induction_admitted Silent (fun t y h hy => silent_step h hy) (fun h => by cases h) hmeets
  have happend : run sh (init sh) (before ++ after) = run sh (run sh (init sh) before) after := foldl_append
  rw [happend]
  exact wire_run_quiet (hsilent hreturned).1 (hsilent hreturned).2 after

def sampleShared : Shared :=
  ⟨{ appId := 0x1000, goCbRef := "IED1LD0/LLN0$GO$gcb01", datSet := "IED1LD0/LLN0$Events", goId := "events", confRev := 1 },
    defaultRetrans, by decide⟩

def published (k : ℕ) (on : Bool) : List PubStep :=
  [.call ⟨[.boolean on], true⟩, .start k ⟨1700000000, 0⟩, .announce true, .spawn]

def sampleRun (steps : List PubStep) : Publishing := run sampleShared (init sampleShared) (published 0 true ++ steps)

instance (s : Publishing) : Decidable s.Quiet :=
  decidable_of_iff (s.waiting.length = 0 ∧ s.turn.isNone ∧ ∀ task ∈ s.tasks, task.phase ≠ .checked)
    ⟨fun h => ⟨List.length_eq_zero_iff.mp h.1, Option.isNone_iff_eq_none.mp h.2.1, h.2.2⟩,
      fun h => ⟨List.length_eq_zero_iff.mpr h.calls, Option.isNone_iff_eq_none.mpr h.turn, h.tasks⟩⟩

/-- A publisher is closed while its task waits: the task wakes to end. -/
theorem closed_silent_once :
    (sampleRun [.close, .finish, .wake 0, .check 0, .transmit 0 true]).wire = (sampleRun [.close, .finish]).wire := by
  have hmeets : Runs.Admitted (step sampleShared) ClosesQuiet (init sampleShared) (published 0 true ++ [.close, .finish]) := by
    refine ⟨nofun, nofun, nofun, nofun, nofun, fun _ _ _ => ?_, trivial⟩
    decide +kernel
  exact closed_silent sampleShared (published 0 true ++ [.close, .finish]) [.wake 0, .check 0, .transmit 0 true] hmeets
    (by decide +kernel)

/-- A call that has seen the flag clear, and a task that has, write their frames after `close` has returned. -/
theorem written_after_close :
    (sampleRun [.call ⟨[.boolean false], true⟩, .wake 0, .check 0, .close, .finish]).returned = true ∧
    (sampleRun [.call ⟨[.boolean false], true⟩, .wake 0, .check 0, .close, .finish]).wire.length = 1 ∧
    (sampleRun [.call ⟨[.boolean false], true⟩, .wake 0, .check 0, .close, .finish, .transmit 0 true,
      .start 0 ⟨1700000001, 0⟩, .announce true]).wire.length = 3 := by
  decide +kernel

structure AliveIn (tasks : List Task) (generation id : ℕ) (task : Task) : Prop where
  at_ : tasks[id]? = some task
  current : task.generation = generation
  phase : task.phase ≠ .ended
  kept : task.aborted = false

def Alive (s : Publishing) (id : ℕ) (task : Task) : Prop := AliveIn s.tasks s.st.generation id task

/-- While the publisher is open and has published, a call is about to start a task or there is a live one. -/
def Advertised (s : Publishing) : Prop :=
  s.closed = false → 0 < s.st.generation → s.turn ≠ none ∨ ∃ id task, s.Alive id task

def Writes (x : PubStep) : Prop := x ≠ .announce false ∧ ∀ id, x ≠ .transmit id false

variable {new old task : Task}

lemma alive_set {id j : ℕ} (hold : s.tasks[j]? = some old) (h : s.Alive id task)
    (hnew : j = id → old = task → new.generation = s.st.generation ∧ new.phase ≠ .ended ∧ new.aborted = false) :
    ∃ task', (s.setTask j new).Alive id task' := by
  by_cases hj : j = id
  · subst hj
    obtain ⟨hgen, hph, hkp⟩ := hnew rfl (Option.mem_unique hold h.at_)
    have hlt : j < s.tasks.length := (List.getElem?_eq_some_iff.mp hold).1
    exact ⟨new, List.getElem?_set_self hlt, hgen, hph, hkp⟩
  · exact ⟨task, (List.getElem?_set_ne hj).trans h.at_, h.current, h.phase, h.kept⟩

lemma advertised_set {j : ℕ} (hold : s.tasks[j]? = some old) (h : s.Advertised)
    (hnew : s.closed = false → old.generation = s.st.generation → old.aborted = false →
      new.generation = s.st.generation ∧ new.phase ≠ .ended ∧ new.aborted = false) : (s.setTask j new).Advertised := by
  intro hop hpublished
  rcases h hop hpublished with hturn | ⟨id, task, hlv⟩
  · exact .inl hturn
  · obtain ⟨task', hlive'⟩ := alive_set hold hlv fun _ heq => hnew hop (heq ▸ hlv.current) (heq ▸ hlv.kept)
    exact .inr ⟨id, task', hlive'⟩

lemma advertised_move (hm : Move sh s x s') (h : s.Advertised) (hx : Writes x) : s'.Advertised := by
  cases hm with
  | stay | called | refused | flagged => exact h
  | begun turn asked fits =>
    rw [begin, if_pos fits]
    exact fun _ _ => .inl (by simp)
  | announced turn => exact fun _ _ => .inl (Option.some_ne_none _)
  | lost turn => exact absurd rfl hx.1
  | @spawned msg turn =>
    have hat : (s.abortTask ++ [({ msg, generation := s.st.generation } : Task)])[s.tasks.length]? =
        some { msg, generation := s.st.generation } := by
      rw [← length_abortTask s]
      exact getElem?_concat_length
    exact fun _ _ => .inr ⟨s.tasks.length, _, hat, rfl, by simp, rfl⟩
  | closed => simp [Advertised]
  | finished closed turn => exact fun hop => absurd (closed.symm.trans hop) (by simp)
  | woken at_ phase kept => exact advertised_set at_ h fun _ hgen hkp => ⟨hgen, by simp, hkp⟩
  | checked at_ phase =>
    refine advertised_set at_ h fun hop hgen hkp => ⟨hgen, ?_, hkp⟩
    simp [hop]
  | superseded at_ phase newer => exact advertised_set at_ h fun _ hsm => absurd hsm.symm newer
  | @repeated id task at_ phase current =>
    have hset : (s.setTask id { task with msg := nextMsg sh task, round := task.round + 1, phase := .sleeping }).Advertised :=
      advertised_set at_ h fun _ hsm hkp => ⟨hsm, by simp, hkp⟩
    exact hset
  | dropped => exact absurd rfl (hx.2 _)

lemma wire_of_alive {id : ℕ} (h : s.Alive id task) (hop : s.closed = false) :
    (run sh s [.wake id, .check id, .transmit id true]).wire =
      s.wire ++ [⟨nextMsg sh task, task.round + 1, s.changes⟩] := by
  obtain ⟨hlt, htask⟩ := List.getElem?_eq_some_iff.mp h.at_
  cases hph : task.phase with
  | ended => exact absurd hph h.phase
  | sleeping | woken | checked =>
    simp [run, step, onTask, setTask, repeatFrame, write, nextMsg, htask, hph, h.kept, h.current, hop, hlt]

/-- In every run in which the interface takes every frame, while the publisher is open, has published and no
call is at work, a task of the current generation is alive, and gets its next frame out. -/
theorem published_advertised (sh : Shared) (steps : List PubStep) (hwrites : ∀ x ∈ steps, Writes x)
    (hopen : (run sh (init sh) steps).closed = false) (hpublished : 0 < (run sh (init sh) steps).st.generation)
    (hidle : (run sh (init sh) steps).turn = none) : ∃ id task, (run sh (init sh) steps).Alive id task ∧
      (run sh (init sh) (steps ++ [.wake id, .check id, .transmit id true])).wire =
        (run sh (init sh) steps).wire ++ [⟨nextMsg sh task, task.round + 1, (run sh (init sh) steps).changes⟩] := by
  have hadvertised : (run sh (init sh) steps).Advertised :=
    induction_admitted Advertised (fun t y h hy => advertised_move (move_step sh t y) h hy)
      (fun _ h => absurd h (Nat.lt_irrefl 0)) (admitted_of_forall hwrites)
  rcases hadvertised hopen hpublished with hturn | ⟨id, task, hlv⟩
  · exact absurd hidle hturn
  have happend : run sh (init sh) (steps ++ [.wake id, .check id, .transmit id true]) =
      run sh (run sh (init sh) steps) [.wake id, .check id, .transmit id true] := foldl_append
  refine ⟨id, task, hlv, ?_⟩
  rw [happend]
  exact wire_of_alive hlv hopen

/-- A state stays advertised after its first retransmission. -/
theorem published_advertised_once :
    ∃ id task, (sampleRun []).Alive id task ∧ (sampleRun [.wake id, .check id, .transmit id true]).wire =
      (sampleRun []).wire ++ [⟨nextMsg sampleShared task, task.round + 1, (sampleRun []).changes⟩] :=
  published_advertised sampleShared (published 0 true) (by simp [published, Writes]) (by decide +kernel) (by decide +kernel)
    rfl

/-- A second state whose announcement the interface refuses is advertised by nobody: the task of the first state ends
at its next look at the generation. -/
theorem refused_unadvertised :
    let s := sampleRun [.call ⟨[.boolean false], true⟩, .start 0 ⟨1700000001, 0⟩, .announce false]
    s.closed = false ∧ s.st.generation = 2 ∧ s.turn.isNone ∧ ∀ task ∈ s.tasks, task.generation = 1 := by
  decide +kernel

end Iec61850.Goose.Publishing

namespace Iec61850.Goose
open Mms PubState List UInt32 ListIndex

def countNum (n : ℕ) : UInt32 := if n = 0 then 0 else UInt32.ofNat ((n - 1) % (2 ^ 32 - 1) + 1)

def rollovers (n : ℕ) : ℕ := (n - 1) / (2 ^ 32 - 1)

lemma toNat_countNum {n : ℕ} (h : 0 < n) : (countNum n).toNat = (n - 1) % (2 ^ 32 - 1) + 1 := by
  rw [countNum, if_neg (by omega)]
  exact toNat_ofNat_of_lt' (by rw [size]; omega)

lemma toNat_nextNum (n : UInt32) : (nextNum n).toNat = if n.toNat = 2 ^ 32 - 1 then 1 else n.toNat + 1 := by
  have hlt : n.toNat < 2 ^ 32 := n.toNat_lt
  have hadd : (n + 1).toNat = (n.toNat + 1) % 2 ^ 32 := by simp
  have hmax : nextNum n = if n + 1 ≤ 1 then 1 else n + 1 := rfl
  rw [hmax]
  split_ifs with hle hls hls
  · rfl
  all_goals rw [le_iff_toNat_le, hadd, toNat_one] at hle
  · rw [toNat_one]
    omega
  · rw [hadd]
    omega
  · rw [hadd]
    omega

lemma countNum_succ (n : ℕ) : countNum (n + 1) = nextNum (countNum n) := by
  apply UInt32.toNat_inj.mp
  rw [toNat_nextNum, toNat_countNum n.succ_pos]
  rcases Nat.eq_zero_or_pos n with rfl | hpos
  · decide
  rw [toNat_countNum hpos]
  have hmod : n % (2 ^ 32 - 1) = if (n - 1) % (2 ^ 32 - 1) = 2 ^ 32 - 2 then 0 else (n - 1) % (2 ^ 32 - 1) + 1 := by
    split <;> omega
  rw [Nat.succ_sub_one, hmod]
  split_ifs <;> omega

lemma countNum_le {a b : ℕ} (ha : 0 < a) (h : a ≤ b) : countNum a ≤ countNum b ∨ rollovers a < rollovers b := by
  rw [le_iff_toNat_le, toNat_countNum ha, toNat_countNum (by omega)]
  have hle : (a - 1) / (2 ^ 32 - 1) ≤ (b - 1) / (2 ^ 32 - 1) := Nat.div_le_div_right (by omega)
  rcases Nat.lt_or_eq_of_le hle with hlt | heq
  · exact .inr hlt
  · left
    omega

namespace Shared

lemma interval_le_tatl {sh : Shared} {n : ℕ} (h : sh.interval n < millis (2 ^ 31)) :
    sh.interval n ≤ millis (sh.tatl n).toNat := by
  unfold millis at *
  have hlt : min (max (2 * (sh.interval n / 1000000)) 1) (2 ^ 32 - 1) < 2 ^ 32 := by omega
  rw [tatl, toNat_ofNat_of_lt' hlt]
  omega

end Shared

variable (sh : Shared)

/-- A frame of a publisher by itself: the number of its state and of its transmission, its size and its lifetime. -/
structure SentFrame.Sound (f : SentFrame) : Prop where
  block : f.msg.goCbRef = sh.cfg.goCbRef
  counted : 0 < f.changes
  stNum : f.msg.stNum = countNum f.changes
  sqNum : f.msg.sqNum = countNum f.round
  lifetime : f.msg.timeAllowedToLive = sh.tatl f.round
  fits : Fits f.msg

/-- The frame after a frame announces a state that is not older, or repeats the frame with the next number. -/
def SentFrame.Follows (a b : SentFrame) : Prop :=
  (b.round = 0 ∧ a.changes ≤ b.changes) ∨
    (b.round = a.round + 1 ∧ b.changes = a.changes ∧ b.msg = a.msg.again b.msg.sqNum b.msg.timeAllowedToLive)

lemma length_of_fits {m : Message} (h : Fits m) : m.marshal.length ≤ maxPayload := by
  have hwide := m.length_again_le m.sqNum m.timeAllowedToLive
  exact hwide.trans h

variable {sh} {task : Task}

lemma SentFrame.Sound.repeated {changes : ℕ} (h : Sound sh ⟨task.msg, task.round, changes⟩) :
    Sound sh ⟨Publishing.nextMsg sh task, task.round + 1, changes⟩ where
  block := h.block
  counted := h.counted
  stNum := h.stNum
  sqNum := by
    rw [countNum_succ, ← h.sqNum]
    rfl
  lifetime := rfl
  fits := h.fits

namespace Publishing
variable {sh : Shared} {s s' : Publishing} {x : PubStep}

def LastSent (s : Publishing) (msg : Message) (round : ℕ) : Prop := s.wire.getLast? = some ⟨msg, round, s.changes⟩

structure WireOk (sh : Shared) (wire : List SentFrame) (changes : ℕ) : Prop where
  sound : ∀ f ∈ wire, f.Sound sh
  starts : ∀ f ∈ wire.head?, f.round = 0
  chain : wire.IsChain SentFrame.Follows
  past : ∀ f ∈ wire, f.changes ≤ changes

lemma WireOk.append {wire : List SentFrame} {f : SentFrame} (h : WireOk sh wire f.changes) (hf : f.Sound sh)
    (hfst : wire = [] → f.round = 0) (hnx : ∀ last ∈ wire.getLast?, last.Follows f) :
    WireOk sh (wire ++ [f]) f.changes where
  sound := forall_mem_append.mpr ⟨h.sound, by simpa using hf⟩
  starts := by
    cases wire with
    | nil => simpa using hfst rfl
    | cons first rest => exact h.starts
  chain := h.chain.append (.singleton f) (by simpa using hnx)
  past := forall_mem_append.mpr ⟨h.past, by simp⟩

def OneEach (tasks : List Task) : Prop :=
  ∀ (i j : ℕ) (a b : Task), tasks[i]? = some a → tasks[j]? = some b → a.generation = b.generation → i = j

variable {id : ℕ} {new old : Task} {msg : Message}

lemma OneEach.set {tasks : List Task} (h : OneEach tasks) (hold : tasks[id]? = some old)
    (hgen : new.generation = old.generation) : OneEach (tasks.set id new) := by
  have hbk (k : ℕ) (a : Task) (ha : (tasks.set id new)[k]? = some a) :
      ∃ a0, tasks[k]? = some a0 ∧ a.generation = a0.generation := by
    rcases set_cases ha with ⟨rfl, rfl⟩ | ⟨-, ha⟩
    · exact ⟨old, hold, hgen⟩
    · exact ⟨a, ha, rfl⟩
  intro i j a b ha hb hab
  obtain ⟨a0, ha0, hga⟩ := hbk i a ha
  obtain ⟨b0, hb0, hgb⟩ := hbk j b hb
  exact h i j a0 b0 ha0 hb0 (hga.symm.trans (hab.trans hgb))

/-- The calls and the tasks against the frames written. Only the one task of the current generation can still
write, and it repeats the last frame. -/
structure Orderly (sh : Shared) (s : Publishing) : Prop where
  wire : WireOk sh s.wire s.changes
  state : s.st.stNum = countNum s.changes
  announced : ∀ msg, s.turn = some (.announced msg) → SentFrame.Sound sh ⟨msg, 0, s.changes⟩
  sent : ∀ msg, s.turn = some (.sent msg) → s.LastSent msg 0
  one : OneEach s.tasks
  reached : ∀ task ∈ s.tasks, task.generation ≤ s.st.generation
  older : s.turn ≠ none → ∀ task ∈ s.tasks, task.generation ≠ s.st.generation
  current : ∀ task ∈ s.tasks, task.generation = s.st.generation → task.phase ≠ .ended → s.LastSent task.msg task.round

lemma orderly_init (sh : Shared) : (init sh).Orderly sh where
  wire := ⟨nofun, nofun, .nil, nofun⟩
  state := rfl
  announced := nofun
  sent := nofun
  one := fun i j a b ha => absurd ha (by simp [init])
  reached := nofun
  older := nofun
  current := nofun

lemma stNum_message (sh : Shared) (req : Request) (now : SystemTime) (h : s.st.stNum = countNum s.changes) :
    (s.st.message sh req now).stNum = countNum (if req.change ∨ s.st.stNum = 0 then s.changes + 1 else s.changes) ∧
      0 < if req.change ∨ s.st.stNum = 0 then s.changes + 1 else s.changes := by
  by_cases hchg : req.change
  · rw [if_pos (.inl hchg), countNum_succ, ← h]
    exact ⟨if_pos hchg, Nat.succ_pos _⟩
  by_cases hz : s.st.stNum = 0
  · have hfst : countNum (s.changes + 1) = 1 := by
      rw [countNum_succ, ← h, hz]
      decide
    rw [if_pos (.inr hz), hfst]
    exact ⟨by simp [message, hchg, hz], Nat.succ_pos _⟩
  rw [if_neg (by simp [hchg, hz]), ← h]
  refine ⟨by simp [message, hchg, hz], Nat.pos_of_ne_zero fun hno => hz ?_⟩
  rw [h, hno]
  rfl

lemma orderly_begun {req : Request} {now : SystemTime} (h : s.Orderly sh)
    (fits : Fits (s.st.message sh req now)) : (s.begin sh req now).Orderly sh := by
  obtain ⟨hnum, hpos⟩ := stNum_message sh req now h.state
  have hle : s.changes ≤ if req.change ∨ s.st.stNum = 0 then s.changes + 1 else s.changes := by split <;> omega
  have hnew (task : Task) (htask : task ∈ s.tasks) : task.generation ≠ s.st.generation + 1 := by
    have := h.reached task htask
    omega
  rw [begin, if_pos fits]
  exact {
    wire := { h.wire with past := fun f hf => (h.wire.past f hf).trans hle }
    state := hnum
    announced := by
      rintro msg ⟨⟩
      exact ⟨rfl, hpos, hnum, rfl, rfl, fits⟩
    sent := by simp
    one := h.one
    reached := fun task htask => (h.reached task htask).trans (Nat.le_succ _)
    older := fun _ => hnew
    current := fun task htask hgen => absurd hgen (hnew task htask) }

lemma orderly_set (h : s.Orderly sh) (hold : s.tasks[id]? = some old) (hgen : new.generation = old.generation)
    (hkeep : new.phase ≠ .ended → old.phase ≠ .ended ∧ new.msg = old.msg ∧ new.round = old.round) :
    (s.setTask id new).Orderly sh := by
  have hm : old ∈ s.tasks := mem_of_getElem? hold
  have hall {P : Task → Prop} (hP : ∀ task ∈ s.tasks, P task) (hnew : P old → P new) : ∀ task ∈ s.tasks.set id new, P task := by
    intro task htask
    rcases mem_or_eq_of_mem_set htask with hin | rfl
    · exact hP task hin
    · exact hnew (hP old hm)
  exact {
    wire := h.wire
    state := h.state
    announced := h.announced
    sent := h.sent
    one := h.one.set hold hgen
    reached := hall h.reached fun hle => hgen ▸ hle
    older := fun hturn => hall (h.older hturn) fun hne => hgen ▸ hne
    current := hall h.current fun hls hnow hph => by
      obtain ⟨hph, hmsg, hround⟩ := hkeep hph
      rw [hmsg, hround]
      exact hls (hgen.symm.trans hnow) hph }

lemma orderly_announced (h : s.Orderly sh) (turn : s.turn = some (.announced msg)) :
    ({ s with turn := some (.sent msg) }.write msg 0).Orderly sh := by
  have holder := h.older (by simp [turn])
  have hls (last : SentFrame) (hls : last ∈ s.wire.getLast?) : last.Follows ⟨msg, 0, s.changes⟩ :=
    .inl ⟨rfl, h.wire.past last (mem_of_getLast? hls)⟩
  exact {
    wire := WireOk.append h.wire (h.announced msg turn) (fun _ => rfl) hls
    state := h.state
    announced := nofun
    sent := by
      rintro msg ⟨⟩
      exact getLast?_concat ..
    one := h.one
    reached := h.reached
    older := fun _ => holder
    current := fun task htask hgen => absurd hgen (holder task htask) }

lemma orderly_abort (h : s.Orderly sh) : { s with tasks := s.abortTask }.Orderly sh where
  wire := h.wire
  state := h.state
  announced := h.announced
  sent := h.sent
  one := by
    intro i j a b ha hb hab
    obtain ⟨a0, ha0, hsa⟩ := abortTask_cases ha
    obtain ⟨b0, hb0, hsb⟩ := abortTask_cases hb
    rw [hsa, hsb] at hab
    exact h.one i j a0 b0 ha0 hb0 hab
  reached := by
    intro task htask
    obtain ⟨old, hold, hsm⟩ := mem_abortTask htask
    rw [hsm]
    exact h.reached old hold
  older := by
    intro hturn task htask
    obtain ⟨old, hold, hsm⟩ := mem_abortTask htask
    rw [hsm]
    exact h.older hturn old hold
  current := by
    intro task htask
    obtain ⟨old, hold, hsm⟩ := mem_abortTask htask
    rw [hsm]
    exact h.current old hold

lemma orderly_spawned (h : s.Orderly sh) (turn : s.turn = some (.sent msg)) (handle : Option ℕ) :
    { s with turn := none, tasks := s.tasks ++ [({ msg, generation := s.st.generation } : Task)], handle }.Orderly sh := by
  have holder := h.older (by simp [turn])
  have hnew (k : ℕ) (a : Task) (ha : s.tasks[k]? = some a) : a.generation ≠ s.st.generation :=
    holder a (mem_of_getElem? ha)
  exact {
    wire := h.wire
    state := h.state
    announced := nofun
    sent := nofun
    one := by
      intro i j a b ha hb hab
      rcases append_cases ha with ha | ⟨rfl, rfl⟩ <;> rcases append_cases hb with hb | ⟨rfl, rfl⟩
      · exact h.one i j a b ha hb hab
      · exact absurd hab (hnew i a ha)
      · exact absurd hab.symm (hnew j b hb)
      · rfl
    reached := forall_mem_append.mpr ⟨h.reached, by simp⟩
    older := nofun
    current := by
      intro task htask hgen _
      rcases mem_append.mp htask with hold | hls
      · exact absurd hgen (holder task hold)
      · rw [mem_singleton.mp hls]
        exact h.sent msg turn }

lemma orderly_repeated (h : s.Orderly sh) (at_ : s.tasks[id]? = some task)
    (phase : task.phase ≠ .ended) (current : s.st.generation = task.generation) :
    (({ s with st.sqNum := (nextMsg sh task).sqNum }.write (nextMsg sh task) (task.round + 1)).setTask id
      { task with msg := nextMsg sh task, round := task.round + 1, phase := .sleeping }).Orderly sh := by
  have hls : s.wire.getLast? = some ⟨task.msg, task.round, s.changes⟩ :=
    h.current task (mem_of_getElem? at_) current.symm phase
  have hsnd := h.wire.sound _ (mem_of_getLast? hls)
  have hturn : s.turn = none := by
    by_contra hsome
    exact h.older hsome task (mem_of_getElem? at_) current.symm
  exact {
    wire := by
      apply WireOk.append h.wire hsnd.repeated
      · intro hnil
        rw [hnil] at hls
        cases hls
      intro last hsm
      rw [hls] at hsm
      cases hsm
      exact .inr ⟨rfl, rfl, rfl⟩
    state := h.state
    announced := by simp [setTask, write, hturn]
    sent := by simp [setTask, write, hturn]
    one := h.one.set at_ rfl
    reached := by
      intro other hoth
      rcases mem_or_eq_of_mem_set hoth with hold | rfl
      · exact h.reached other hold
      · exact current.ge
    older := by simp [setTask, write, hturn]
    current := by
      intro other hoth hgen _
      obtain ⟨k, hk⟩ := mem_iff_getElem?.mp hoth
      rcases set_cases hk with ⟨-, rfl⟩ | ⟨hne, hoth⟩
      · exact getLast?_concat ..
      -- no other task has the generation
      · exact absurd (h.one k id other task hoth at_ (hgen.trans current)) hne }

lemma orderly_move (hm : Move sh s x s') (h : s.Orderly sh) : s'.Orderly sh := by
  cases hm with
  | stay => exact h
  | called | refused | flagged | closed => exact { h with }
  | begun turn asked fits => exact orderly_begun { h with } fits
  | announced turn => exact orderly_announced h turn
  | lost turn =>
    exact {
      h with
      announced := nofun
      sent := nofun
      older := nofun
      current := fun task htask hgen => absurd hgen (h.older (by simp [turn]) task htask) }
  | spawned turn => exact orderly_spawned (orderly_abort h) turn _
  | finished closed turn => exact { orderly_abort h with }
  | woken at_ phase _ | checked at_ phase =>
    exact orderly_set h at_ rfl fun _ => ⟨by simp [phase], rfl, rfl⟩
  | superseded at_ phase newer => exact orderly_set h at_ rfl fun hph => absurd rfl hph
  | repeated at_ phase current => exact orderly_repeated h at_ (by simp [phase]) current
  | dropped at_ phase current =>
    exact orderly_set { h with } at_ rfl fun hph => absurd rfl hph

lemma orderly_run (sh : Shared) (steps : List PubStep) : (run sh (init sh) steps).Orderly sh :=
  Runs.invariant (Orderly sh) (fun s x => orderly_move (move_step sh s x)) (orderly_init sh) steps

/-- In every run the frames on the wire start with an announcement, and each announces a state that is not
older or repeats the one before it with the next number. The number of a state goes back only where the
counter rolls over, and skips 0; that of a transmission counts the frames since the announcement. Every
frame fits the interface and lives as long as the wait after it. -/
theorem wire_ordered (sh : Shared) (steps : List PubStep) : (∀ f ∈ (run sh (init sh) steps).wire.head?, f.round = 0) ∧
      (run sh (init sh) steps).wire.IsChain SentFrame.Follows ∧
      (run sh (init sh) steps).wire.Pairwise (fun a b =>
        a.msg.stNum ≤ b.msg.stNum ∨ rollovers a.changes < rollovers b.changes) ∧
      ∀ f ∈ (run sh (init sh) steps).wire,
        f.msg.stNum = countNum f.changes ∧ f.msg.stNum ≠ 0 ∧ f.msg.sqNum = countNum f.round ∧
          f.msg.marshal.length ≤ maxPayload ∧
          (sh.interval f.round < millis (2 ^ 31) → sh.interval f.round ≤ millis f.msg.timeAllowedToLive.toNat) := by
  have hwire := (orderly_run sh steps).wire
  generalize (run sh (init sh) steps).wire = wire at hwire
  refine ⟨hwire.starts, hwire.chain, ?_, ?_⟩
  · have hchs : (wire.map SentFrame.changes).IsChain (· ≤ ·) := by
      rw [isChain_map]
      apply hwire.chain.imp
      rintro a b (⟨-, hle⟩ | ⟨-, hsm, -⟩)
      · exact hle
      · exact hsm.ge
    apply List.Pairwise.imp_of_mem _ (pairwise_map.mp hchs.pairwise)
    intro a b ha hb hle
    rw [(hwire.sound a ha).stNum, (hwire.sound b hb).stNum]
    exact countNum_le (hwire.sound a ha).counted hle
  intro f hf
  have hsnd := hwire.sound f hf
  refine ⟨hsnd.stNum, ?_, hsnd.sqNum, length_of_fits hsnd.fits, ?_⟩
  · intro hz
    have hpos := toNat_countNum hsnd.counted
    rw [← hsnd.stNum, hz, UInt32.toNat_zero] at hpos
    omega
  · rw [hsnd.lifetime]
    exact Shared.interval_le_tatl

lemma current_of_writes {ok : Bool} : (step sh s (.transmit id ok)).wire ≠ s.wire →
    ∃ task, s.tasks[id]? = some task ∧ task.generation = s.st.generation := by
  refine onTask_cases (P := fun t => t.wire ≠ s.wire → _) (fun h => absurd rfl h) ?_
  intro task htask _ h
  refine ⟨task, htask, by_contra fun hne => h ?_⟩
  rw [repeatFrame, if_pos (Ne.symm hne)]
  rfl

/-- In every run at most one retransmission task can write a frame. -/
theorem one_writer (sh : Shared) (steps : List PubStep) : Set.Subsingleton
    { id | ∃ ok, (step sh (run sh (init sh) steps) (.transmit id ok)).wire ≠ (run sh (init sh) steps).wire } := by
  rintro i ⟨_, hi⟩ j ⟨_, hj⟩
  obtain ⟨a, ha, hga⟩ := current_of_writes hi
  obtain ⟨b, hb, hgb⟩ := current_of_writes hj
  exact (orderly_run sh steps).one i j a b ha hb (hga.trans hgb.symm)

end Publishing

/-- What a subscriber finds irregular from the messages before. -/
structure Anomalies where
  stNumRegressed : Bool := false
  sqNumGap : Bool := false
  stale : Bool := false
deriving DecidableEq

/-- The last message of a control block, with its lifetime and arrival in nanoseconds. -/
structure SeqState where
  stNum : UInt32
  sqNum : UInt32
  tatl : ℕ
  arrival : ℕ

/-- The last message of each control block. -/
abbrev SequenceTracker := Table String SeqState

namespace SequenceTracker

def seen (m : Message) (now : ℕ) : SeqState := ⟨m.stNum, m.sqNum, millis m.timeAllowedToLive.toNat, now⟩

def anomalies (st : SeqState) (m : Message) (now : ℕ) : Anomalies :=
  let wrapped := st.stNum = 0xffffffff ∧ m.stNum = 1
  { stNumRegressed := m.stNum < st.stNum ∧ ¬wrapped
    sqNumGap := if m.stNum = st.stNum then m.sqNum ≠ nextNum st.sqNum else m.sqNum ≠ 0
    stale := st.tatl ≠ 0 ∧ st.tatl < now - st.arrival }

def compare (m : Message) (now : ℕ) : Option SeqState → Anomalies
  | some st => anomalies st m now
  | none => {}

def observe (tr : SequenceTracker) (m : Message) (now : ℕ) : Anomalies × SequenceTracker :=
  (compare m now (tr.lookup m.goCbRef), tr.insert m.goCbRef (seen m now))

def observeAll (tr : SequenceTracker) : List (Message × ℕ) → List Anomalies
  | [] => []
  | (m, now) :: rest => (tr.observe m now).1 :: observeAll (tr.observe m now).2 rest

lemma observe_observe {tr : SequenceTracker} {a b : Message} {ta tb : ℕ} (h : b.goCbRef = a.goCbRef) :
    ((tr.observe a ta).2.observe b tb).1 = anomalies (seen a ta) b tb := by
  have hls : (tr.observe a ta).2.lookup b.goCbRef = some (seen a ta) := by
    rw [h]
    exact AList.lookup_insert _
  calc
    _ = compare b tb ((tr.observe a ta).2.lookup b.goCbRef) := rfl
    _ = _ := by rw [hls, compare]

end SequenceTracker

lemma nextNum_ne_self (n : UInt32) : nextNum n ≠ n := by
  intro h
  have hnx := toNat_nextNum n
  rw [h] at hnx
  split at hnx <;> omega

lemma nextNum_lt {n : UInt32} (h : nextNum n < n) : n = 0xffffffff ∧ nextNum n = 1 := by
  have hnx := toNat_nextNum n
  rw [UInt32.lt_iff_toNat_lt] at h
  split at hnx
  · next hls => exact ⟨UInt32.toNat_inj.mp hls, UInt32.toNat_inj.mp hnx⟩
  · omega

lemma countNum_ne {a b : ℕ} (ha : 0 < a) (hlt : a < b) (hturn : b - a < 2 ^ 32 - 1) : countNum b ≠ countNum a := by
  intro h
  have hnat := congrArg UInt32.toNat h
  rw [toNat_countNum ha, toNat_countNum (by omega)] at hnat
  omega

section Streams
variable {sh : Shared} {a b : SentFrame}
open SequenceTracker

/-- The next frame when no state is announced twice and no announcement is lost. -/
def SentFrame.Continues (a b : SentFrame) : Prop :=
  (b.round = 0 ∧ b.changes = a.changes + 1) ∨ (b.round = a.round + 1 ∧ b.changes = a.changes)

lemma anomalies_of_continues {ta tb : ℕ} (ha : a.Sound sh) (hb : b.Sound sh) (h : a.Continues b)
    (htime : tb - ta ≤ millis a.msg.timeAllowedToLive.toNat) : anomalies (seen a.msg ta) b.msg tb = {} := by
  have hstale : ¬millis a.msg.timeAllowedToLive.toNat < tb - ta := by omega
  rcases h with ⟨hround, hchs⟩ | ⟨hround, hchs⟩
  · have hst : b.msg.stNum = nextNum a.msg.stNum := by rw [hb.stNum, hchs, countNum_succ, ← ha.stNum]
    have hsq : b.msg.sqNum = 0 := by rw [hb.sqNum, hround]; rfl
    have hregress : ¬(b.msg.stNum < a.msg.stNum ∧ ¬(a.msg.stNum = 0xffffffff ∧ b.msg.stNum = 1)) := by
      rw [hst]
      exact fun hlt => hlt.2 (nextNum_lt hlt.1)
    have hnew : b.msg.stNum ≠ a.msg.stNum := hst ▸ nextNum_ne_self _
    simp only [anomalies, seen, hregress, hnew, hsq, hstale, and_false, decide_false, if_false, ne_eq, not_true_eq_false]
  have hst : b.msg.stNum = a.msg.stNum := by rw [hb.stNum, hchs, ← ha.stNum]
  have hsq : b.msg.sqNum = nextNum a.msg.sqNum := by rw [hb.sqNum, hround, countNum_succ, ← ha.sqNum]
  simp only [anomalies, seen, hst, hsq, hstale, UInt32.lt_irrefl, false_and, and_false, decide_false, if_true, ne_eq,
    not_true_eq_false]

abbrev Arrival := SentFrame × ℕ

/-- Every frame arrives within the time that the frame before it is allowed to live. -/
def InTime (received : List Arrival) : Prop :=
  received.IsChain fun a b => b.2 - a.2 ≤ millis a.1.msg.timeAllowedToLive.toNat
deriving Decidable

def verdicts (tr : SequenceTracker) (received : List Arrival) : List Anomalies :=
  tr.observeAll (received.map fun r => (r.1.msg, r.2))

lemma verdicts_cons (tr : SequenceTracker) (r : Arrival) (rest : List Arrival) :
    verdicts tr (r :: rest) = (tr.observe r.1.msg r.2).1 :: verdicts (tr.observe r.1.msg r.2).2 rest := rfl

variable {tr : SequenceTracker}

lemma verdicts_after {first : Arrival} {rest : List Arrival}
    (hsnd : ∀ r ∈ first :: rest, r.1.Sound sh) (hchn : (first :: rest).IsChain fun a b => a.1.Continues b.1)
    (htime : InTime (first :: rest)) : ∀ o ∈ verdicts (tr.observe first.1.msg first.2).2 rest, o = {} := by
  induction rest generalizing tr first with
  | nil => nofun
  | cons next rest ih =>
    have ha := hsnd first mem_cons_self
    have hb := hsnd next (mem_cons_of_mem _ mem_cons_self)
    obtain ⟨hnx, hchn⟩ := isChain_cons_cons.mp hchn
    obtain ⟨hsoon, htime⟩ := isChain_cons_cons.mp htime
    rw [verdicts_cons, forall_mem_cons]
    constructor
    · rw [observe_observe (hb.block.trans ha.block.symm)]
      exact anomalies_of_continues ha hb hnx hsoon
    · exact ih (fun r hr => hsnd r (mem_cons_of_mem _ hr)) hchn htime

lemma verdicts_regular {received : List Arrival} (hnew : tr.lookup sh.cfg.goCbRef = none)
    (hsnd : ∀ r ∈ received, r.1.Sound sh) (hchn : received.IsChain fun a b => a.1.Continues b.1)
    (htime : InTime received) : ∀ o ∈ verdicts tr received, o = {} := by
  rcases received with _ | ⟨first, rest⟩
  · nofun
  rw [verdicts_cons, forall_mem_cons]
  constructor
  · calc
      _ = compare first.1.msg first.2 (tr.lookup first.1.msg.goCbRef) := rfl
      _ = _ := by rw [(hsnd first mem_cons_self).block, hnew, SequenceTracker.compare]
  · exact verdicts_after hsnd hchn htime

lemma round_of_continues {wire : List SentFrame} {i k : ℕ} (hchn : wire.IsChain SentFrame.Continues)
    (ha : wire[i]? = some a) (hb : wire[i + k]? = some b) :
    a.changes ≤ b.changes ∧ (b.changes = a.changes → b.round = a.round + k) := by
  induction k generalizing b with
  | zero =>
    cases ha.symm.trans hb
    exact ⟨le_rfl, fun _ => rfl⟩
  | succ k ih =>
    obtain ⟨hlt, hget⟩ := List.getElem?_eq_some_iff.mp hb
    have hprev : wire[i + k]? = some wire[i + k] := List.getElem?_eq_getElem (by omega)
    have hnx : wire[i + k].Continues b := hget ▸ List.isChain_iff_getElem.mp hchn (i + k) hlt
    obtain ⟨hle, hround⟩ := ih hprev
    rcases hnx with ⟨-, hchs⟩ | ⟨hsucc, hchs⟩
    · exact ⟨by omega, fun hsm => by omega⟩
    · refine ⟨hchs ▸ hle, fun hsm => ?_⟩
      omega

lemma gap_of_lost {ta tb k : ℕ} (ha : a.Sound sh) (hb : b.Sound sh)
    (hchs : b.changes = a.changes) (hround : b.round = a.round + (k + 1)) (hlost : 0 < k) (hturn : k ≤ 2 ^ 32 - 2) :
    ((tr.observe a.msg ta).2.observe b.msg tb).1.sqNumGap := by
  have hst : b.msg.stNum = a.msg.stNum := by rw [hb.stNum, hchs, ← ha.stNum]
  have hsq : b.msg.sqNum ≠ nextNum a.msg.sqNum := by
    rw [hb.sqNum, ha.sqNum, ← countNum_succ, hround]
    exact countNum_ne (by omega) (by omega) (by omega)
  rw [observe_observe (hb.block.trans ha.block.symm)]
  simp only [anomalies, seen, hst, if_true, hsq, ne_eq, not_false_eq_true, decide_true]

end Streams

namespace Publishing
variable {sh : Shared} {s s' : Publishing} {x : PubStep}

/-- A call only repeats a state that is not published yet, and the announcements are written. -/
def Announces (s : Publishing) (x : PubStep) : Prop :=
  x ≠ .announce false ∧ ∀ k now req, x = .start k now → s.waiting[k]? = some req → req.change = true ∨ s.st.stNum = 0

def pending (s : Publishing) : ℕ :=
  match s.turn with
  | some (.announced _) => 1
  | _ => 0

structure Kept (s : Publishing) : Prop where
  chain : s.wire.IsChain SentFrame.Continues
  last : ∀ f ∈ s.wire.getLast?, s.changes = f.changes + s.pending

lemma pending_of_none (h : s.turn = none) : s.pending = 0 := by rw [pending, h]

lemma kept_append {f : SentFrame} (h : s.Kept) (hf : ∀ last ∈ s.wire.getLast?, last.Continues f)
    (hwire : s'.wire = s.wire ++ [f]) (hchs : s'.changes = f.changes) (hdone : s'.pending = 0) : s'.Kept where
  chain := by
    rw [hwire]
    exact h.chain.append (.singleton f) (by simpa using hf)
  last := by
    rw [hwire, getLast?_concat]
    rintro _ ⟨⟩
    rw [hchs, hdone]
    rfl

lemma kept_move (hm : Move sh s x s') (ho : s.Orderly sh) (h : s.Kept) (hx : s.Announces x) : s'.Kept := by
  cases hm with
  | stay => exact h
  | called | refused | flagged | closed | finished | woken | checked | superseded | dropped => exact ⟨h.chain, h.last⟩
  | @begun k now req turn asked fits =>
    have hnew : req.change ∨ s.st.stNum = 0 := hx.2 k now req rfl asked
    rw [begin, if_pos fits, if_pos hnew]
    refine ⟨h.chain, fun f hf => ?_⟩
    have hls : s.changes = f.changes + s.pending := h.last f hf
    rw [pending_of_none turn] at hls
    exact congrArg (· + 1) hls
  | @announced msg turn =>
    refine kept_append h ?_ rfl rfl rfl
    intro last hls
    have hchs := h.last last hls
    rw [pending, turn] at hchs
    exact .inl ⟨rfl, hchs⟩
  | lost => exact absurd rfl hx.1
  | spawned turn =>
    refine ⟨h.chain, fun f hf => ?_⟩
    have hls := h.last f hf
    rw [pending, turn] at hls
    exact hls
  | @repeated id task at_ phase current =>
    have hmem : task ∈ s.tasks := mem_of_getElem? at_
    have hls : s.LastSent task.msg task.round := ho.current task hmem current.symm (by simp [phase])
    have hturn : s.turn = none := by
      by_contra hsome
      exact ho.older hsome task hmem current.symm
    refine kept_append h ?_ rfl rfl (pending_of_none hturn)
    intro last hsm
    rw [hls] at hsm
    cases hsm
    exact .inr ⟨rfl, rfl⟩

lemma kept_run {steps : List PubStep} (h : Runs.Admitted (step sh) Announces (init sh) steps) :
    (run sh (init sh) steps).Orderly sh ∧ (run sh (init sh) steps).Kept := by
  refine Runs.induction_admitted (fun t => t.Orderly sh ∧ t.Kept) ?_ ⟨orderly_init sh, .nil, nofun⟩ h
  intro t y ht hy
  exact ⟨orderly_move (move_step sh t y) ht.1, kept_move (move_step sh t y) ht.1 ht.2 hy⟩

/-- In every run in which no published state is announced again and every announcement is written, a
subscriber that receives all frames in time finds nothing irregular, and one that has lost up to `2^32 -
2` frames between two of a state finds a gap. -/
theorem tracker_agrees (sh : Shared) (steps : List PubStep)
    (hannounces : Runs.Admitted (step sh) Announces (init sh) steps) (tr : SequenceTracker) :
    (∀ times, times.length = (run sh (init sh) steps).wire.length → tr.lookup sh.cfg.goCbRef = none →
      InTime ((run sh (init sh) steps).wire.zip times) → ∀ o ∈ verdicts tr ((run sh (init sh) steps).wire.zip times), o = {}) ∧
    ∀ i lost a b ta tb, (run sh (init sh) steps).wire[i]? = some a →
      (run sh (init sh) steps).wire[i + (lost + 1)]? = some b → b.changes = a.changes → 0 < lost → lost ≤ 2 ^ 32 - 2 →
      ((tr.observe a.msg ta).2.observe b.msg tb).1.sqNumGap = true := by
  obtain ⟨horderly, hkp⟩ := kept_run hannounces
  have hsnd := horderly.wire.sound
  have hchn := hkp.chain
  generalize (run sh (init sh) steps).wire = wire at hsnd hchn
  constructor
  · intro times hlength hnew htime
    have hfst : (wire.zip times).map Prod.fst = wire := map_fst_zip hlength.ge
    apply verdicts_regular hnew _ _ htime
    · intro r hr
      exact hsnd r.1 (hfst ▸ mem_map_of_mem hr)
    · rw [← hfst, isChain_map] at hchn
      exact hchn
  · intro i lost a b ta tb ha hb hstate hlost hturn
    have hround := (round_of_continues hchn ha hb).2 hstate
    exact gap_of_lost (hsnd a (mem_of_getElem? ha)) (hsnd b (mem_of_getElem? hb)) hstate hround hlost hturn

/-- A state and its first retransmission, received in time. -/
theorem tracker_agrees_once :
    let s := sampleRun [.wake 0, .check 0, .transmit 0 true]
    s.wire.length = 2 ∧ ∀ o ∈ verdicts ∅ (s.wire.zip [0, 4000000]), o = {} := by
  have hannounces : Runs.Admitted (step sampleShared) Announces (init sampleShared)
      (published 0 true ++ [.wake 0, .check 0, .transmit 0 true]) := by
    refine ⟨⟨nofun, nofun⟩, ⟨nofun, fun _ _ _ _ _ => .inr ?_⟩, ⟨nofun, nofun⟩, ⟨nofun, nofun⟩, ⟨nofun, nofun⟩,
      ⟨nofun, nofun⟩, ⟨nofun, nofun⟩, trivial⟩
    decide +kernel
  exact ⟨by decide +kernel,
    (tracker_agrees sampleShared _ hannounces ∅).1 [0, 4000000] (by decide +kernel) rfl (by decide +kernel)⟩

/-- A refresh announces the state under the number 0 again, which the tracker takes for a gap. -/
theorem refresh_flagged :
    verdicts ∅ ((sampleRun [.call ⟨[.boolean true], false⟩, .start 0 ⟨1700000001, 0⟩, .announce true]).wire.zip
      [0, 4000000]) = [{}, { sqNumGap := true }] := by
  decide +kernel

end Publishing
end Iec61850.Goose
