import Iec61850.JournalRuns

/-! Reading a log while entries are logged, discarded and deleted. -/
namespace Iec61850.Mms
open Server Logging JournalQuery JournalPlace Asn1 TimeUtil List Option Element RollingLog

variable {t x : SystemTime} {e : LogEntry}

lemma toMillis_eq (h : t.nanos < 1000000000) :
    toMillis t = { secs := t.secs, nanos := t.nanos / 1000000 * 1000000 } := by
  unfold toMillis fromUnix unixParts
  have hsecs : t.nanos / 1000000 * 1000000 / 1000000000 = 0 := by omega
  have hnanos : t.nanos / 1000000 * 1000000 % 1000000000 = t.nanos / 1000000 * 1000000 := by omega
  rw [hnanos]
  norm_cast
  rw [hsecs]
  simp

lemma wireTime_toMillis (h : t.nanos < 1000000000) : wireTime (toMillis t) = wireTime t := by
  have hbytes : binaryTimeBytes (toMillis t) = binaryTimeBytes t := by
    rw [toMillis_eq h]
    dsimp only [binaryTimeBytes, Value.binaryTimeOf, unixParts]
    have hdiv : t.nanos / 1000000 * 1000000 / 1000000 = t.nanos / 1000000 := by omega
    rw [hdiv]
  apply some.inj
  rw [← time_binaryTimeBytes, ← time_binaryTimeBytes, hbytes]

lemma OnWire.millis (h : OnWire x) : x.nanos % 1000000 = 0 := by
  have hwire : wireTime x = x := h
  rw [← hwire]
  show (_ % 1000 * 1000000 % 1000000000) % 1000000 = 0
  omega

lemma toMillis_lt_iff (h : t.nanos < 1000000000) (hx : OnWire x) : toMillis t < x ↔ t < x := by
  have hmillis := hx.millis
  rw [toMillis_eq h, SystemTime.lt_iff, SystemTime.lt_iff]
  have hnanos : t.nanos / 1000000 * 1000000 < x.nanos ↔ t.nanos < x.nanos := by omega
  rw [hnanos]

def stamp (e : JournalEntry) : List UInt8 × Option SystemTime := (e.entryId, e.occurrenceTime)

def entryStamp (e : LogEntry) : List UInt8 × Option SystemTime := (e.id, some e.time)

lemma stamp_received (q : JournalQuery) (h : OnWire e.time) : stamp (received q e) = entryStamp e :=
  congrArg (fun t => (e.id, some t)) h

variable {q q' : JournalQuery}

lemma keepVars_congr (h : q.vars = q'.vars) (keep : Bool) (vars : List (String × Value)) :
    q.keepVars keep vars = q'.keepVars keep vars := by
  induction vars generalizing keep with
  | nil => rfl
  | cons var vars ih =>
    unfold keepVars
    simp only [h, ih]

lemma entryElement_congr (h : q.vars = q'.vars) : q.entryElement = q'.entryElement := by
  funext e
  unfold entryElement
  rw [keepVars_congr h]

lemma sizes_sublist {xs ys : List Element} (h : xs.Sublist ys) : Element.sizes xs ≤ Element.sizes ys := by
  induction h with
  | slnil => exact le_rfl
  | cons y _ ih =>
    rw [sizes_cons]
    omega
  | cons_cons y _ ih =>
    rw [sizes_cons, sizes_cons]
    omega

variable {domain item : String} {stop : SystemTime} {entries : List LogEntry} {last : LogEntry}

lemma upTo_eq (hcnt : q.count = 0) (out entries : List LogEntry) :
    q.upTo out entries = out ++ entries.takeWhile fun e => !q.stopTime.any (· < e.time) := by
  induction entries generalizing out with
  | nil => simp [upTo]
  | cons e es ih =>
    rw [upTo, takeWhile_cons]
    cases hstop : q.stopTime.any (· < e.time) with
    | true => simp
    | false =>
      have hno : ¬ (0 < q.count ∧ q.count ≤ out.length) := by omega
      rw [if_neg Bool.false_ne_true, if_neg hno, ih]
      simp

def notAfter (stop : SystemTime) (entries : List LogEntry) : List LogEntry :=
  entries.takeWhile fun e => decide (e.time ≤ stop)

lemma lt_of_mem_dropWhile {x : LogEntry} (h : entries.Pairwise fun a b => a.time ≤ b.time)
    (hx : x ∈ entries.dropWhile fun e => decide (e.time ≤ stop)) : stop < x.time := by
  induction entries with
  | nil => cases hx
  | cons e es ih =>
    rw [pairwise_cons] at h
    rw [dropWhile_cons] at hx
    split at hx
    · exact ih h.2 hx
    next haft =>
    have hlt : stop < e.time := by simpa using haft
    rcases mem_cons.mp hx with rfl | hx
    · exact hlt
    · exact hlt.trans_le (h.1 x hx)

lemma select_eq {place : JournalPlace} {k : ℕ} (hsta : (place.query domain item stop).start entries = some k) :
    (place.query domain item stop).select entries = notAfter (wireTime stop) (entries.drop k) := by
  have hcnt : (place.query domain item stop).count = 0 := by cases place <;> rfl
  have hstop : (place.query domain item stop).stopTime = some (wireTime stop) := by cases place <;> rfl
  rw [select, hsta]
  dsimp only
  rw [upTo_eq hcnt, hstop, nil_append]
  congr 1
  funext e
  rw [any_some, Bool.eq_iff_iff]
  simp

lemma select_sublist (place : JournalPlace) (entries : List LogEntry) :
    ((place.query domain item stop).select entries).Sublist entries := by
  cases hsta : (place.query domain item stop).start entries with
  | none =>
    rw [select, hsta]
    exact nil_sublist _
  | some k =>
    rw [select_eq hsta]
    exact (takeWhile_sublist _).trans (drop_sublist k entries)

lemma select_start (t : SystemTime) : ∃ front rest, entries = front ++ rest ∧ (∀ e ∈ front, e.time < wireTime t) ∧
      (∀ e, rest.head? = some e → wireTime t ≤ e.time) ∧
      ((start t).query domain item stop).select entries = notAfter (wireTime stop) rest := by
  have hsta : ((start t).query domain item stop).start entries =
      some (entries.findIdx fun e => decide (wireTime t ≤ e.time)) := rfl
  refine ⟨_, _, (List.take_append_drop _ entries).symm, ?_, ?_, select_eq hsta⟩
  · intro e he
    obtain ⟨i, hi, rfl⟩ := List.mem_take_iff_getElem.mp he
    have hlt : i < entries.findIdx fun e => decide (wireTime t ≤ e.time) := by omega
    simpa using List.not_of_lt_findIdx hlt
  intro e he
  rw [List.head?_drop] at he
  obtain ⟨hlt, rfl⟩ := List.getElem?_eq_some_iff.mp he
  simpa using List.findIdx_getElem (w := hlt)

lemma select_after {front rest : List LogEntry} (t : SystemTime)
    (hnd : ((front ++ last :: rest).map LogEntry.id).Nodup) :
    ((after t last.id).query domain item stop).select (front ++ last :: rest) = notAfter (wireTime stop) rest := by
  have hfind : (front ++ last :: rest).findIdx? (fun e => decide (e.id = last.id)) = some front.length := by
    have hno : front.findIdx? (fun e => decide (e.id = last.id)) = none := by
      rw [findIdx?_eq_none_iff]
      intro e he
      rw [map_append, nodup_append] at hnd
      exact decide_eq_false (hnd.2.2 _ (mem_map_of_mem he) _ (by simp))
    rw [findIdx?_append, hno]
    simp [findIdx?_cons]
  have hsta : ((after t last.id).query domain item stop).start (front ++ last :: rest) =
      some (front.length + 1) := by
    simp only [JournalQuery.start, query, hfind]
  rw [select_eq hsta]
  simp

lemma select_lost {entryId : List UInt8} (hlost : ∀ e ∈ entries, e.id ≠ entryId)
    (hlater : ∀ e ∈ entries, wireTime t < e.time) :
    ((after t entryId).query domain item stop).select entries = notAfter (wireTime stop) entries := by
  have hfind : entries.findIdx? (fun e => decide (e.id = entryId)) = none := by
    rw [findIdx?_eq_none_iff]
    intro e he
    exact decide_eq_false (hlost e he)
  have hz : (entries.findIdx fun e => decide (wireTime t < e.time)) = 0 := by
    cases entries with
    | nil => rfl
    | cons e es =>
      rw [findIdx_cons, decide_eq_true (hlater e mem_cons_self)]
      rfl
  have hsta : ((after t entryId).query domain item stop).start entries = some 0 := by
    simp only [JournalQuery.start, query, hfind, hz]
  rw [select_eq hsta]
  simp

/-- A client that reads a log by time, and what happens at the server: `between n` are the steps between
the reads `n` and `n + 1`. -/
structure LogRead where
  cfg : Config
  options : LogOptions
  others : Request → Except HandlerError Element
  first : Logging
  between : ℕ → List LogStep
  maxPdu : ℕ
  ids : ℕ → UInt32
  domain : String
  item : String
  start : SystemTime
  stop : SystemTime

namespace LogRead

def server (r : LogRead) : ℕ → Logging
  | 0 => r.first
  | n + 1 => (r.server n).run r.cfg r.options (r.between n)

def held (r : LogRead) (n : ℕ) : List LogEntry := ((r.server n).journals.lookup (r.domain, r.item)).getD []

def everLogged (r : LogRead) (n : ℕ) : List LogEntry := (r.server n).appendedTo (r.domain, r.item)

def handle (r : LogRead) (n : ℕ) : Request → Except HandlerError Element :=
  journalHandler r.others (r.server n).journals r.maxPdu

def fetch (r : LogRead) (n : ℕ) : JournalPlace → Except CallError (List JournalEntry × Bool) :=
  readJournalPage (call (r.handle n) r.maxPdu (r.ids n)) r.domain r.item r.stop

def result (r : LogRead) (fuel : ℕ) : Option (Except CallError (List JournalEntry)) :=
  readJournalByTime r.handle r.maxPdu r.ids r.domain r.item r.start r.stop fuel

def Reads (r : LogRead) : ℕ → JournalPlace → Prop := Paging.Visited r.fetch continueAfter (.start r.start)

def InRange (r : LogRead) (e : LogEntry) : Prop := r.start ≤ e.time ∧ e.time ≤ r.stop

def query (r : LogRead) (place : JournalPlace) : JournalQuery := place.query r.domain r.item r.stop

structure Kept (r : LogRead) : Prop where
  known : ∀ n, ((r.server n).journals.lookup (r.domain, r.item)).isSome
  held : ∀ n, r.held n <:+ r.everLogged n
  grows : ∀ n, r.everLogged n <+: r.everLogged (n + 1)
  nodup : ∀ n, ((r.everLogged n).map LogEntry.id).Nodup
  dated : ∀ n, (r.everLogged n).Pairwise fun a b => a.time ≤ b.time
  onWire : ∀ n, ∀ e ∈ r.everLogged n, OnWire e.time
  width : ∀ n, ∀ e ∈ r.everLogged n, e.id.length = 8

/-- The entries logged between two reads carry times that do not go back. -/
def Timely (r : LogRead) : Prop :=
  ∀ n, Runs.Admitted (step r.cfg r.options) Dated (r.server n) (r.between n)

variable {r : LogRead}

lemma chronicle_server (hfst : Chronicle r.cfg r.first) (h : r.Timely) (n : ℕ) : Chronicle r.cfg (r.server n) := by
  induction n with
  | zero => exact hfst
  | succ n ih => exact chronicle_run ih (h n)

lemma kept (hfst : Chronicle r.cfg r.first) (h : r.Timely)
    (hlog : (r.first.journals.lookup (r.domain, r.item)).isSome) : r.Kept := by
  have hext (n : ℕ) : Extends (r.server n) (r.server (n + 1)) := extends_run (r.between n)
  have hknown (n : ℕ) : ((r.server n).journals.lookup (r.domain, r.item)).isSome := by
    induction n with
    | zero => exact hlog
    | succ n ih => exact (hext n).known _ ih
  constructor
  case known => exact hknown
  case held =>
    intro n
    obtain ⟨entries, hent⟩ := isSome_iff_exists.mp (hknown n)
    have hsuffix := (chronicle_server hfst h n).held _ entries hent
    unfold held
    rw [hent]
    exact hsuffix
  case grows => exact fun n => (hext n).appendedTo _
  case nodup => exact fun n => (chronicle_server hfst h n).nodup_ids _
  case dated => exact fun n => (chronicle_server hfst h n).dated_to _
  case onWire => exact fun n e he => (chronicle_server hfst h n).onWire_to he
  case width =>
    intro n e he
    obtain ⟨ns, hids, -, -⟩ := (chronicle_server hfst h n).numbered
    have hm : e.id ∈ ns.map (entryNo r.cfg.entrySeed) := by
      rw [← hids]
      exact mem_map_of_mem (((r.server n).appendedTo_sublist _).subset he)
    obtain ⟨k, -, hk⟩ := mem_map.mp hm
    rw [← hk]
    rfl

/-- What the requests and responses can carry: the ends of the range, up to milliseconds, and PDUs whose
lengths take four octets. -/
structure Sendable (r : LogRead) : Prop where
  start : OnWire r.start
  nanos : r.stop.nanos < 1000000000
  stop : OnWire (toMillis r.stop)
  names : (Text.octets r.domain).length + (Text.octets r.item).length < 2 ^ 31
  limit : r.maxPdu < 2 ^ 32
  unlimited : r.maxPdu = 0 → ∀ n,
    Element.sizes ((r.held n).map ({ domain := r.domain, name := r.item } : JournalQuery).entryElement) + 44 < 2 ^ 32

lemma notAfter_iff (h : r.Sendable) (he : OnWire e.time) : e.time ≤ wireTime r.stop ↔ e.time ≤ r.stop := by
  have hstop : wireTime r.stop = toMillis r.stop := by
    rw [← wireTime_toMillis h.nanos]
    exact h.stop
  rw [hstop, ← not_lt, ← not_lt, toMillis_lt_iff h.nanos he]

variable {n : ℕ} {passed since : List LogEntry} {place : JournalPlace}

def Reaches (r : LogRead) (passed : List LogEntry) : JournalPlace → Prop
  | .start t => t = r.start ∧ passed = []
  | .after t entryId => ∃ before last, passed = before ++ [last] ∧ last.id = entryId ∧ last.time = t ∧ r.start ≤ t

def Resumable (r : LogRead) (n : ℕ) : JournalPlace → Prop
  | .start _ => True
  | .after t entryId => (∃ e ∈ r.held n, e.id = entryId) ∨ ∀ e ∈ r.held n, t < e.time

lemma resumes_start (hk : r.Kept) (hs : r.Sendable) :
    ∃ skipped rest, r.everLogged n = skipped ++ rest ∧ (∀ x ∈ skipped, x ∈ r.held n → ¬ r.InRange x) ∧
      (∀ x ∈ rest, r.start ≤ x.time) ∧
      (r.query (.start r.start)).select (r.held n) = notAfter (wireTime r.stop) rest := by
  have hwire : wireTime r.start = r.start := hs.start
  obtain ⟨front, rest, hheld, hfront, hhead, hsel⟩ := select_start r.start
  obtain ⟨old, hold⟩ := hk.held n
  have hnd : (r.everLogged n).Nodup := (hk.nodup n).of_map _
  have hdated := hk.dated n
  rw [hwire] at hfront hhead
  refine ⟨old ++ front, rest, ?_, ?_, ?_, hsel⟩
  · rw [← hold, hheld, append_assoc]
  · intro x hx hm hrg
    rcases mem_append.mp hx with hx | hx
    · -- What was discarded is not in the log.
      rw [← hold, nodup_append] at hnd
      exact hnd.2.2 x hx x hm rfl
    · exact absurd hrg.1 (not_le.mpr (hfront x hx))
  rw [← hold, hheld] at hdated
  intro x hx
  rcases rest with _ | ⟨e, es⟩
  · cases hx
  have hfst := hhead e rfl
  rcases mem_cons.mp hx with rfl | hx
  · exact hfst
  · have hsrt := pairwise_cons.mp (pairwise_append.mp (pairwise_append.mp hdated).2.1).2.1
    exact hfst.trans (hsrt.1 x hx)

lemma resumes_after {before : List LogEntry} (hk : r.Kept)
    (hsp : r.everLogged n = before ++ last :: since) (hsta : r.start ≤ last.time)
    (hres : r.Resumable n (.after last.time last.id)) :
    ∃ skipped rest, since = skipped ++ rest ∧ (∀ x ∈ skipped, x ∉ r.held n) ∧ (∀ x ∈ rest, r.start ≤ x.time) ∧
      (r.query (.after last.time last.id)).select (r.held n) = notAfter (wireTime r.stop) rest := by
  have hids := hk.nodup n
  have hnd : (r.everLogged n).Nodup := hids.of_map _
  have hm {x : LogEntry} (hx : x ∈ r.held n) : x ∈ r.everLogged n := (hk.held n).subset hx
  have hls : last ∈ r.everLogged n := by
    rw [hsp]
    simp
  have hwire : wireTime last.time = last.time := hk.onWire n last hls
  have hlater : ∀ x ∈ since, r.start ≤ x.time := by
    have hdated := hk.dated n
    rw [hsp, pairwise_append, pairwise_cons] at hdated
    exact fun x hx => hsta.trans (hdated.2.1.1 x hx)
  obtain ⟨front, hfront⟩ | ⟨hlost, skipped, hskip, hgone⟩ := held_since (hk.held n) hsp hnd
  · refine ⟨[], since, rfl, nofun, hlater, ?_⟩
    have hsub : ((r.held n).map LogEntry.id).Nodup := hids.sublist ((hk.held n).sublist.map _)
    rw [hfront] at hsub ⊢
    exact select_after last.time hsub
  have hids' : ∀ e ∈ r.held n, e.id ≠ last.id := by
    intro e he hid
    obtain rfl := inj_on_of_nodup_map hids (hm he) hls hid
    exact hlost he
  have hall : ∀ e ∈ r.held n, wireTime last.time < e.time := by
    rw [hwire]
    rcases hres with ⟨e, he, hid⟩ | hall
    · exact absurd hid (hids' e he)
    · exact hall
  refine ⟨skipped, r.held n, hskip, hgone, ?_, select_lost hids' hall⟩
  intro x hx
  apply hlater
  rw [hskip]
  exact mem_append_right skipped hx

lemma resumes (hk : r.Kept) (hs : r.Sendable) (hsp : r.everLogged n = passed ++ since)
    (hpl : r.Reaches passed place) (hres : r.Resumable n place) :
    ∃ skipped rest, since = skipped ++ rest ∧ (∀ x ∈ skipped, x ∈ r.held n → ¬ r.InRange x) ∧
      (∀ x ∈ rest, r.start ≤ x.time) ∧ (r.query place).select (r.held n) = notAfter (wireTime r.stop) rest := by
  cases place with
  | start t =>
    obtain ⟨rfl, rfl⟩ := hpl
    rw [nil_append] at hsp
    rw [← hsp]
    exact resumes_start hk hs
  | after t entryId =>
    obtain ⟨before, last, rfl, rfl, rfl, hsta⟩ := hpl
    rw [append_assoc] at hsp
    obtain ⟨skipped, rest, hsince, hgone, hrs, hsel⟩ := resumes_after hk hsp hsta hres
    exact ⟨skipped, rest, hsince, fun x hx hm => absurd hm (hgone x hx), hrs, hsel⟩

/-- What the reads got so far, by identifier and time, and how far they came. -/
def Progress (r : LogRead) (n : ℕ) (got : List JournalEntry) (place : JournalPlace) : Prop :=
  ∃ es passed since, got.map stamp = es.map entryStamp ∧
    RollingLog.Reached r.everLogged r.held r.InRange n es passed since ∧ (∀ e ∈ es, r.InRange e) ∧ r.Reaches passed place

lemma progress_first (r : LogRead) : r.Progress 0 [] (.start r.start) :=
  ⟨[], [], _, rfl, reached_zero _ _ _, nofun, rfl, rfl⟩

lemma length_of_reaches (hk : r.Kept) (hsp : r.everLogged n = passed ++ since) (hpl : r.Reaches passed place)
    (t : SystemTime) (entryId : List UInt8) (heq : place = .after t entryId) : entryId.length = 8 := by
  subst heq
  obtain ⟨before, last, rfl, rfl, -, -⟩ := hpl
  apply hk.width n
  rw [hsp]
  simp

variable {batch got : List JournalEntry} {more : Bool}

section
variable (hk : r.Kept) (hs : r.Sendable)
include hk hs

lemma fetch_ok
    (hsp : r.everLogged n = passed ++ since) (hpl : r.Reaches passed place) (hres : r.Resumable n place)
    (hfet : r.fetch n place = .ok (batch, more)) :
    ∃ skipped page left tail, since = skipped ++ (page ++ (left ++ tail)) ∧
      (∀ x ∈ skipped, x ∈ r.held n → ¬ r.InRange x) ∧ batch.map stamp = page.map entryStamp ∧
      more = decide (left ≠ []) ∧ (left ≠ [] → page ≠ []) ∧ (∀ x ∈ page, r.InRange x) ∧ ∀ x ∈ tail, ¬ r.InRange x := by
  obtain ⟨skipped, rest, rfl, hskip, hsta, hsel⟩ := resumes hk hs hsp hpl hres
  obtain ⟨entries, hent⟩ := Option.isSome_iff_exists.mp (hk.known n)
  have hheld : r.held n = entries := by
    unfold held
    rw [hent]
    rfl
  have hunl : r.maxPdu = 0 →
      sizes (((r.query place).select entries).map (r.query place).entryElement) + 44 < 2 ^ 32 := by
    intro hz
    have hall := hs.unlimited hz n
    have hsub : ((r.query place).select entries).Sublist entries := select_sublist place entries
    have hle := sizes_sublist (hsub.map (r.query place).entryElement)
    have hsm : (r.query place).entryElement = ({ domain := r.domain, name := r.item } : JournalQuery).entryElement := by
      apply entryElement_congr
      cases place <;> rfl
    rw [hheld, ← hsm] at hall
    exact lt_of_le_of_lt (Nat.add_le_add_right hle 44) hall
  have hrequest : (confirmedRequest (r.ids n) (journalRequest r.domain r.item r.stop place)).Fits :=
    request_fits hs.names (length_of_reaches hk hsp hpl)
  obtain ⟨page, left, hcut, rfl, rfl, hne⟩ := readJournalPage_ok hent hrequest hs.limit hunl hfet
  rw [hheld] at hsel
  have hcut := hsel.symm.trans hcut
  have hwire {x : LogEntry} (hx : x ∈ rest) : OnWire x.time := by
    apply hk.onWire n
    rw [hsp]
    simp [hx]
  have hdated : rest.Pairwise fun a b => a.time ≤ b.time := by
    have hall := hk.dated n
    rw [hsp] at hall
    exact (List.pairwise_append.mp (List.pairwise_append.mp hall).2.1).2.1
  have hpage {x : LogEntry} (hx : x ∈ page) : x ∈ rest ∧ x.time ≤ wireTime r.stop := by
    have htaken : x ∈ notAfter (wireTime r.stop) rest := by
      rw [hcut]
      exact List.mem_append_left left hx
    have hle := List.mem_takeWhile_imp htaken
    exact ⟨(List.takeWhile_sublist _).subset htaken, of_decide_eq_true hle⟩
  refine ⟨skipped, page, left, rest.dropWhile fun e => decide (e.time ≤ wireTime r.stop), ?_, hskip, ?_, rfl, hne, ?_, ?_⟩
  · rw [← List.append_assoc page, ← hcut]
    unfold notAfter
    rw [List.takeWhile_append_dropWhile]
  · rw [List.map_map]
    apply List.map_congr_left
    intro x hx
    exact stamp_received _ (hwire (hpage hx).1)
  · intro x hx
    obtain ⟨hm, hle⟩ := hpage hx
    exact ⟨hsta x hm, (notAfter_iff hs (hwire hm)).mp hle⟩
  · intro x hx hrg
    have hm := (List.dropWhile_sublist _).subset hx
    have hle := (notAfter_iff hs (hwire hm)).mpr hrg.2
    exact absurd hle (not_le.mpr (lt_of_mem_dropWhile hdated hx))

lemma progress_next {last : JournalEntry} (hprog : r.Progress n got place) (hres : r.Resumable n place)
    (hfet : r.fetch n place = .ok (batch ++ [last], true)) :
    r.Progress (n + 1) (got ++ (batch ++ [last])) (continueAfter last) := by
  obtain ⟨es, passed, since, hgot, hrch, hrg, hpl⟩ := hprog
  obtain ⟨skipped, page, left, tail, hsince, hskip, hbatch, -, -, hpage, -⟩ :=
    fetch_ok hk hs hrch.split hpl hres hfet
  obtain ⟨new, hnx⟩ := hrch.next (hk.grows n) hsince hskip
  -- The last entry of the page is the one to continue after.
  have hends := hbatch.symm
  rw [map_append, map_singleton] at hends
  obtain ⟨front, final, rfl, -, hfinal⟩ := map_eq_append_iff.mp hends
  obtain ⟨lastEntry, rfl, hls⟩ := map_eq_singleton_iff.mp hfinal
  have hstamp : (lastEntry.id, some lastEntry.time) = (last.entryId, last.occurrenceTime) := hls
  rw [Prod.mk.injEq] at hstamp
  refine ⟨es ++ (front ++ [lastEntry]), _, _, ?_, hnx, ?_, passed ++ (skipped ++ front), lastEntry, ?_, hstamp.1, ?_, ?_⟩
  · rw [map_append, hgot, hbatch, ← map_append]
  · intro e he
    rcases mem_append.mp he with he | he
    · exact hrg e he
    · exact hpage e he
  · simp
  · rw [← hstamp.2]
    rfl
  · rw [← hstamp.2]
    exact (hpage lastEntry (by simp)).1

lemma progress_last (hprog : r.Progress n got place) (hres : r.Resumable n place)
    (hfet : r.fetch n place = .ok (batch, more)) (hmo : more → batch = []) :
    ∃ es : List LogEntry, (got ++ batch).map stamp = es.map entryStamp ∧ es.Sublist (r.everLogged n) ∧ (∀ e ∈ es, r.InRange e) ∧
      ∀ e, (∀ k ≤ n, e ∈ r.held k) → r.InRange e → e ∈ es := by
  obtain ⟨es, passed, since, hgot, hrch, hrg, hpl⟩ := hprog
  obtain ⟨skipped, page, left, tail, hsince, hskip, hbatch, rfl, hne, hpage, htail⟩ :=
    fetch_ok hk hs hrch.split hpl hres hfet
  have hleft : left = [] := by
    by_contra hleft
    obtain rfl := hmo (decide_eq_true hleft)
    exact hne hleft (map_eq_nil_iff.mp hbatch.symm)
  subst hleft
  obtain ⟨hsub, hcomplete⟩ := hrch.finish (hk.held n) hsince hskip htail
  refine ⟨es ++ page, by rw [map_append, map_append, hgot, hbatch], hsub, ?_, hcomplete⟩
  intro e he
  rcases mem_append.mp he with he | he
  · exact hrg e he
  · exact hpage e he

lemma progress_of_reads (hres : ∀ n place, r.Reads n place → r.Resumable n place)
    (hreads : r.Reads n place) : ∃ got, r.Progress n got place := by
  induction hreads with
  | first => exact ⟨[], progress_first r⟩
  | @next n place batch last hpl hfet ih =>
    obtain ⟨got, hprog⟩ := ih
    exact ⟨_, progress_next hk hs hprog (hres n place hpl) hfet⟩

end

/-- The client returned entries `es` of the log in order, in the requested range, none of them twice, with all
that are in the range and were in the log at the reads up to `last`. -/
structure Faithful (r : LogRead) (entries : List JournalEntry) (last : ℕ) (es : List LogEntry) : Prop where
  reads : ∃ place, r.Reads last place
  same : entries.map stamp = es.map entryStamp
  ordered : es.Sublist (r.everLogged last)
  ranged : ∀ e ∈ es, r.InRange e
  once : (entries.map JournalEntry.entryId).Nodup
  complete : ∀ e, (∀ n ≤ last, e ∈ r.held n) → r.InRange e → e ∈ es

/-- A read after an entry that the log no longer holds goes on with the oldest entry of the log, and all
entries of the log were logged after that one. -/
def Resumes (r : LogRead) (n : ℕ) (t : SystemTime) (entryId : List UInt8) : Prop :=
  (r.query (.after t entryId)).select (r.held n) = notAfter (wireTime r.stop) (r.held n) ∧
    ∃ before last since, r.everLogged n = before ++ last :: since ∧ last.id = entryId ∧ r.held n <:+ since

/-- A client that reads a changing log by time gets what it should, if the clock does not go back, all times can
be sent, and at each continuation the log holds the entry to continue after or only later ones. -/
theorem journal_read (r : LogRead) (opts : Options) (m : Model) (before : List LogStep)
    (hfirst : r.first = (new opts m).run r.cfg r.options before)
    (hbefore : Runs.Admitted (step r.cfg r.options) Dated (new opts m) before)
    (htimely : r.Timely) (hlog : (r.first.journals.lookup (r.domain, r.item)).isSome) (hs : r.Sendable)
    (hresumable : ∀ n place, r.Reads n place → r.Resumable n place) :
    (∀ fuel entries, r.result fuel = some (.ok entries) → ∃ last es, r.Faithful entries last es) ∧
      ∀ n t entryId, r.Reads n (.after t entryId) → (∀ e ∈ r.held n, e.id ≠ entryId) → r.Resumes n t entryId := by
  have hchronicle : Chronicle r.cfg r.first := by
    rw [hfirst]
    exact chronicle_run (chronicle_new opts m) hbefore
  have hk : r.Kept := kept hchronicle htimely hlog
  constructor
  · intro fuel entries hres
    have hstep : ∀ n got place batch last, r.Reads n place → r.Progress n got place →
        r.fetch n place = .ok (batch ++ [last], true) → r.Progress (n + 1) (got ++ (batch ++ [last])) (continueAfter last) :=
      fun n got place batch last hreads hprog hfet =>
        progress_next hk hs hprog (hresumable n place hreads) hfet
    obtain ⟨n, got, place, batch, more, hprog, hreads, hfet, hmo, rfl⟩ :=
      Paging.collect_rule r.Progress hstep (progress_first r) .first hres
    obtain ⟨es, hsm, hsub, hrg, hcomplete⟩ :=
      progress_last hk hs hprog (hresumable n place hreads) hfet hmo
    refine ⟨n, es, ⟨place, hreads⟩, hsm, hsub, hrg, ?_, hcomplete⟩
    -- The identifiers are those of entries that were logged.
    have hids : (got ++ batch).map JournalEntry.entryId = es.map LogEntry.id := by
      have hfst := congrArg (List.map Prod.fst) hsm
      rwa [List.map_map, List.map_map] at hfst
    rw [hids]
    exact (hk.nodup n).sublist (hsub.map _)
  intro n t entryId hreads hlost
  obtain ⟨got, es, passed, since, -, hrch, -, front, last, rfl, rfl, rfl, hsta⟩ :=
    progress_of_reads hk hs hresumable hreads
  have hsp := hrch.split
  rw [List.append_assoc] at hsp
  have hnot : last ∉ r.held n := fun hm => hlost last hm rfl
  have hlater := (hresumable n _ hreads).resolve_left (fun ⟨e, he, hid⟩ => hlost e he hid)
  have hwire : wireTime last.time = last.time := by
    apply hk.onWire n
    rw [hsp]
    simp
  refine ⟨select_lost hlost (by rwa [hwire]), front, last, since, hsp, rfl, ?_⟩
  obtain ⟨head, hhead⟩ | ⟨-, skipped, hskip, -⟩ := held_since (hk.held n) hsp ((hk.nodup n).of_map _)
  · exact absurd (hhead ▸ by simp) hnot
  · exact ⟨skipped, hskip.symm⟩

/-- The sample's log, read in pages of one entry; another change is logged after the first read. -/
def sampleRead (capacity : ℕ) (logged : List SystemTime) (later : SystemTime) : LogRead where
  cfg := sampleConfig
  options := { capacity := capacity }
  others := fun _ => .error .other
  first := (new {} (Inner.loggedModel "ds")).run sampleConfig { capacity := capacity }
    (logged.map (.update statusChanged ·))
  between
    | 0 => [.update statusChanged later]
    | _ + 1 => []
  maxPdu := 100
  ids := fun _ => 1
  domain := "LD"
  item := "LLN0$EventLog"
  start := { secs := 1000000000 }
  stop := { secs := 1000000002 }

lemma server_sampleRead (capacity : ℕ) (logged : List SystemTime) (later : SystemTime) (n : ℕ) :
    (sampleRead capacity logged later).server (n + 1) = (sampleRead capacity logged later).server 1 := by
  induction n with
  | zero => rfl
  | succ n ih => exact ih

def growing : LogRead := sampleRead 3 [⟨1000000000, 5000000⟩, ⟨1000000001, 0⟩] ⟨1000000003, 0⟩

lemma reads_growing (h : growing.Reads n place) :
    n = 0 ∧ place = .start ⟨1000000000, 0⟩ ∨
      n = 1 ∧ place = .after ⟨1000000000, 5000000⟩ [0, 0, 0, 7, 0, 0, 0, 1] := by
  induction h with
  | first => exact .inl ⟨rfl, rfl⟩
  | @next n place batch last _ hfet ih =>
    obtain ⟨rfl, rfl⟩ | ⟨rfl, rfl⟩ := ih
    · right
      have hpage : (growing.fetch 0 (.start ⟨1000000000, 0⟩)).map (fun page => page.1.map stamp) =
          .ok [([0, 0, 0, 7, 0, 0, 0, 1], some ⟨1000000000, 5000000⟩)] := by decide +kernel
      rw [hfet] at hpage
      have hmap : (batch ++ [last]).map stamp = [([0, 0, 0, 7, 0, 0, 0, 1], some ⟨1000000000, 5000000⟩)] :=
        Except.ok.inj hpage
      have hls : batch.map stamp ++ [stamp last] = [] ++ [([0, 0, 0, 7, 0, 0, 0, 1], some ⟨1000000000, 5000000⟩)] := by
        rwa [map_append] at hmap
      obtain ⟨-, hstamp⟩ := append_inj' hls rfl
      obtain ⟨hid, htime⟩ := Prod.mk.inj (cons.inj hstamp).1
      refine ⟨rfl, ?_⟩
      rw [continueAfter, hid, htime]
      rfl
    · have hmo : (growing.fetch 1 (.after ⟨1000000000, 5000000⟩ [0, 0, 0, 7, 0, 0, 0, 1])).map Prod.snd = .ok false := by decide +kernel
      rw [hfet] at hmo
      cases hmo

/-- Two entries are read while a third is logged. -/
theorem two_entries_read : (growing.result 3).map (fun result => result.map (List.map stamp)) =
      some (.ok [([0, 0, 0, 7, 0, 0, 0, 1], some ⟨1000000000, 5000000⟩),
        ([0, 0, 0, 7, 0, 0, 0, 2], some ⟨1000000001, 0⟩)]) ∧
    ∀ fuel entries, growing.result fuel = some (.ok entries) → ∃ last es, growing.Faithful entries last es := by
  refine ⟨by decide +kernel, ?_⟩
  generalize hr : growing = r
  refine (journal_read r {} (Inner.loggedModel "ds")
    [.update statusChanged ⟨1000000000, 5000000⟩, .update statusChanged ⟨1000000001, 0⟩]
    (hr ▸ rfl) ?_ ?_ ?_ ?_ ?_).1
  · subst hr
    decide +kernel
  · subst hr
    rintro (_ | n)
    · decide +kernel
    · trivial
  · subst hr
    decide +kernel
  · subst hr
    exact ⟨by decide +kernel, by decide, by decide +kernel, by decide +kernel, by decide, nofun⟩
  subst hr
  intro n place hreads
  obtain ⟨rfl, rfl⟩ | ⟨rfl, rfl⟩ := reads_growing hreads
  · trivial
  · left
    decide +kernel

def crowded : LogRead := sampleRead 2 [⟨1000000000, 5000000⟩, ⟨1000000000, 5000000⟩] ⟨1000000001, 0⟩

/-- Of two entries of one millisecond the client gets only the first: it is discarded before the second read,
which goes on with the next millisecond. -/
theorem same_millisecond_skipped :
    (crowded.result 3).map (fun result => result.map (List.map stamp)) =
      some (.ok [([0, 0, 0, 7, 0, 0, 0, 1], some ⟨1000000000, 5000000⟩),
        ([0, 0, 0, 7, 0, 0, 0, 3], some ⟨1000000001, 0⟩)]) ∧
    ¬ ∀ fuel entries, crowded.result fuel = some (.ok entries) → ∃ last es, crowded.Faithful entries last es := by
  have hres : (crowded.result 3).map (fun result => result.map (map stamp)) =
    some (.ok [([0, 0, 0, 7, 0, 0, 0, 1], some ⟨1000000000, 5000000⟩),
      ([0, 0, 0, 7, 0, 0, 0, 3], some ⟨1000000001, 0⟩)]) := by decide +kernel
  refine ⟨hres, ?_⟩
  intro hall
  let r := crowded
  have hk : r.Kept := by
    apply kept
    · apply chronicle_run (chronicle_new _ _)
      decide +kernel
    · rintro (_ | n)
      · decide +kernel
      · trivial
    · decide +kernel
  -- The second entry is in the log at every read.
  obtain ⟨e, he, hid, hsta, hstop⟩ : ∃ e ∈ r.held 0, e.id = [0, 0, 0, 7, 0, 0, 0, 2] ∧ r.start ≤ e.time ∧
      e.time ≤ r.stop := by decide +kernel
  obtain ⟨e', he', hid'⟩ : ∃ e ∈ r.held 1, e.id = [0, 0, 0, 7, 0, 0, 0, 2] := by decide +kernel
  have hsm : e' = e := by
    have hlogged : e ∈ r.everLogged 1 := (hk.grows 0).subset ((hk.held 0).subset he)
    exact inj_on_of_nodup_map (hk.nodup 1) ((hk.held 1).subset he') hlogged (hid'.trans hid.symm)
  have hsty (n : ℕ) : e ∈ r.held n := by
    cases n with
    | zero => exact he
    | succ n =>
      have hserver : r.server (n + 1) = r.server 1 := server_sampleRead _ _ _ n
      unfold held
      rw [hserver]
      exact hsm ▸ he'
  obtain ⟨result, hok, hstamps⟩ := map_eq_some_iff.mp hres
  rcases result with err | entries
  · cases hstamps
  have hstamps : entries.map stamp = _ := Except.ok.inj hstamps
  obtain ⟨last, es, hfaithful⟩ := hall 3 entries hok
  have hm : entryStamp e ∈ entries.map stamp := by
    rw [hfaithful.same]
    exact mem_map_of_mem (hfaithful.complete e (fun n _ => hsty n) ⟨hsta, hstop⟩)
  rw [hstamps, entryStamp, hid] at hm
  simp at hm

end LogRead
end Iec61850.Mms
