import Iec61850.DataSetRuns
import Iec61850.ReportLoss

/-! Logs over whole runs of a server: the ranges they show, and the entries ever logged. -/
namespace Iec61850.Server
open Mms DataObject DataAttribute List Option FirstMatch

def rangeAttrs : List String := ["OldEntrTm", "NewEntrTm", "OldEnt", "NewEnt"]

def attrPlaces (o : DataObject) : List (String × Fc) := o.attributes.map fun a => (a.name, a.fc)

/-- A log control block has the attributes of the entry range, each the first of its name. -/
def RangeShaped (m : Model) (lcb : LcbState) : Prop :=
  ∃ o, m.object lcb.domain lcb.ln lcb.name = some o ∧
    ∀ n ∈ rangeAttrs, (attrPlaces o).find? (fun p => p.1 == n) = some (n, .lg)

variable {o : DataObject} {f : DataAttribute → DataAttribute}

lemma attrPlaces_onAttribute (test : DataAttribute → Bool) (hnm : ∀ a, (f a).name = a.name)
    (hfc : ∀ a, (f a).fc = a.fc) : attrPlaces (o.onAttribute test f) = attrPlaces o := by
  apply map_update
  intro a
  rw [hnm, hfc]

lemma attrPlaces_writeBelowMut {fc : Fc} (hf : KeepsPlace f) (path : List String) :
    attrPlaces (Access.writeBelowMut fc f path o) = attrPlaces o := by
  match path with
  | [] => rfl
  | [first] =>
    rw [writeBelowMut_last]
    exact attrPlaces_onAttribute _ (descendMut_name hf _) (descendMut_fc hf _)
  | first :: second :: rest =>
    cases hch : o.child first with
    | some sub =>
      rw [writeBelowMut_of_child hch]
      rfl
    | none =>
      rw [writeBelowMut_of_no_child hch]
      exact attrPlaces_onAttribute _ (descendMut_name hf _) (descendMut_fc hf _)

variable {m m' : Model} {lcb lcb' : LcbState} {name n : String} {v : Value}

section
variable (h : RangeShaped m lcb)
include h

lemma RangeShaped.of_places (heq : ∀ o, m.object lcb.domain lcb.ln lcb.name = some o →
      ∃ o', m'.object lcb.domain lcb.ln lcb.name = some o' ∧ attrPlaces o' = attrPlaces o) :
    RangeShaped m' lcb := by
  obtain ⟨o, ho, hattrs⟩ := h
  obtain ⟨o', ho', hplaces⟩ := heq o ho
  refine ⟨o', ho', ?_⟩
  rw [hplaces]
  exact hattrs

lemma RangeShaped.of_object (heq : m'.object lcb.domain lcb.ln lcb.name = m.object lcb.domain lcb.ln lcb.name) :
    RangeShaped m' lcb := h.of_places fun o ho => ⟨o, heq.trans ho, rfl⟩

lemma RangeShaped.of_path (hpath : lcb'.path = lcb.path) : RangeShaped m lcb' := by
  obtain ⟨hd, hl, hn⟩ := triple_inj hpath
  unfold RangeShaped
  rw [hd, hl, hn]
  exact h

end

lemma lcbAttr_of_object (h : m'.object lcb.domain lcb.ln lcb.name = m.object lcb.domain lcb.ln lcb.name)
    (n : String) : lcbAttr m' lcb n = lcbAttr m lcb n := by
  rw [lcbAttr, h, lcbAttr]

lemma object_setLcbAttr_same : (setLcbAttr m lcb name v).object lcb.domain lcb.ln lcb.name =
    (m.object lcb.domain lcb.ln lcb.name).map fun o =>
      o.onAttribute (fun a => a.name == name) fun a => { a with value := some v } :=
  Model.object_objectMut_same m fun _ => rfl

variable {d l o : String} {attrs : List (String × Value)}

lemma object_setLcbAttr_other (hne : (d, l, o) ≠ lcb.path) :
    (setLcbAttr m lcb name v).object d l o = m.object d l o :=
  Model.object_objectMut_other m (fun _ => rfl) hne

lemma rangeShaped_setLcbAttr (h : RangeShaped m lcb') : RangeShaped (setLcbAttr m lcb name v) lcb' := by
  by_cases hpath : lcb'.path = lcb.path
  · apply RangeShaped.of_path _ hpath
    apply (h.of_path hpath.symm).of_places
    intro o ho
    refine ⟨_, by rw [object_setLcbAttr_same, ho, map_some], ?_⟩
    exact attrPlaces_onAttribute _ (fun _ => rfl) fun _ => rfl
  · exact h.of_object (object_setLcbAttr_other hpath)

lemma lcbAttr_setLcbAttr_same (h : RangeShaped m lcb) (hnm : name ∈ rangeAttrs) :
    lcbAttr (setLcbAttr m lcb name v) lcb name = some v := by
  obtain ⟨o, ho, hattrs⟩ := h
  have hplace := hattrs name hnm
  rw [attrPlaces, find?_map] at hplace
  obtain ⟨a, ha, hpair⟩ := map_eq_some_iff.mp hplace
  obtain ⟨haname, hfc⟩ := Prod.mk.inj hpair
  have hfst : o.attributes.find? (fun a => a.name == name) = some a := ha
  have hsm := find_update_same (p := fun a : DataAttribute => a.name == name)
    (f := fun a => { a with value := some v }) (fun _ h => h) o.attributes
  rw [hfst, map_some] at hsm
  have hfind := find_of_wider (q := fun a : DataAttribute => a.name == name && a.fc == .lg)
    (fun b hb => ((Bool.and_eq_true _ _).mp hb).1) hsm (by simp [hfc, haname])
  rw [lcbAttr, object_setLcbAttr_same, ho, map_some, bind_some, onAttribute, hfind]
  rfl

lemma lcbAttr_setLcbAttr_other (hne : lcb'.path = lcb.path → n ≠ name) :
    lcbAttr (setLcbAttr m lcb name v) lcb' n = lcbAttr m lcb' n := by
  by_cases hpath : lcb'.path = lcb.path
  · rw [lcbAttr_of_path hpath, lcbAttr_of_path hpath, lcbAttr, lcbAttr, object_setLcbAttr_same]
    rcases m.object lcb.domain lcb.ln lcb.name with _ | o
    · rfl
    apply congrArg (bind · value)
    apply find_update_other
    intro a ha
    have hno : (a.name == n && a.fc == .lg) = false := by
      rw [eq_of_beq ha, beq_eq_false_iff_ne.mpr (Ne.symm (hne hpath)), Bool.false_and]
    exact ⟨hno, hno⟩
  · rw [lcbAttr, lcbAttr, object_setLcbAttr_other hpath]

lemma rangeShaped_setAll (attrs : List (String × Value)) (h : RangeShaped m lcb') :
    RangeShaped (attrs.foldl (fun m a => setLcbAttr m lcb a.1 a.2) m) lcb' := by
  induction attrs generalizing m with
  | nil => exact h
  | cons a attrs ih => exact ih (rangeShaped_setLcbAttr h)

lemma object_setAll_other (attrs : List (String × Value)) (hne : (d, l, o) ≠ lcb.path) :
    (attrs.foldl (fun m a => setLcbAttr m lcb a.1 a.2) m).object d l o = m.object d l o := by
  induction attrs generalizing m with
  | nil => rfl
  | cons a attrs ih => exact ih.trans (object_setLcbAttr_other hne)

lemma lcbAttr_setAll_other (hn : n ∉ attrs.map Prod.fst) :
    lcbAttr (attrs.foldl (fun m a => setLcbAttr m lcb a.1 a.2) m) lcb n = lcbAttr m lcb n := by
  induction attrs generalizing m with
  | nil => rfl
  | cons a attrs ih =>
    rw [map_cons, mem_cons, not_or] at hn
    rw [foldl_cons, ih hn.2]
    exact lcbAttr_setLcbAttr_other fun _ => hn.1

lemma lcbAttr_setAll_same (h : RangeShaped m lcb)
    (hnames : ∀ a ∈ attrs, a.1 ∈ rangeAttrs) (hnd : (attrs.map Prod.fst).Nodup) {a : String × Value}
    (ha : a ∈ attrs) : lcbAttr (attrs.foldl (fun m a => setLcbAttr m lcb a.1 a.2) m) lcb a.1 = some a.2 := by
  induction attrs generalizing m with
  | nil => cases ha
  | cons b attrs ih =>
    rw [map_cons, nodup_cons] at hnd
    rw [foldl_cons]
    cases ha with
    | head =>
      rw [lcbAttr_setAll_other hnd.1]
      exact lcbAttr_setLcbAttr_same h (hnames a mem_cons_self)
    | tail _ ha =>
      exact ih (rangeShaped_setLcbAttr h) (fun x hx => hnames x (mem_cons_of_mem _ hx)) hnd.2 ha

namespace Inner
variable {s t : Inner} {cfg : Config} {w : WriteCtx} {domain item attr key : String}

/-- What a write leaves: the log control blocks and their logs, and what they show of the entries. -/
structure RangesKept (s s' : Inner) : Prop where
  tracker : s'.tracker = s.tracker
  lcbs : s'.lcbs.All fun key lcb' =>
    ∃ lcb, s.lcbs.lookup key = some lcb ∧ lcb'.path = lcb.path ∧ lcb'.journal = lcb.journal
  attrs : s.lcbs.All fun _ lcb => ∀ n ∈ rangeAttrs, lcbAttr s'.model lcb n = lcbAttr s.model lcb n
  shaped : s.lcbs.All fun _ lcb => RangeShaped s.model lcb → RangeShaped s'.model lcb

lemma rangesKept_refl : RangesKept s s :=
  ⟨rfl, fun _ lcb h => ⟨lcb, h, rfl, rfl⟩, fun _ _ _ _ _ => rfl, fun _ _ _ h => h⟩

lemma RangesKept.track (h : RangesKept s t) (hs : s.Hosted) (controlBlock : Bool)
    (res : Except DataAccessError Unit) : RangesKept s (t.track w domain item v controlBlock res) := by
  have hobj : s.lcbs.All fun _ lcb =>
      (t.track w domain item v controlBlock res).model.object lcb.domain lcb.ln lcb.name =
        t.model.object lcb.domain lcb.ln lcb.name := by
    intro key lcb hlcb
    apply object_track_of_untracked
    intro o ho
    rw [h.tracker] at ho
    exact (hs.untracked o ho).2 key lcb hlcb
  obtain ⟨m, changes, -, heq⟩ := onlyTracked_track controlBlock res
  rw [heq] at hobj ⊢
  refine ⟨h.tracker, h.lcbs, ?_, ?_⟩
  · intro key lcb hlcb n hn
    exact (lcbAttr_of_object (hobj key lcb hlcb) n).trans (h.attrs key lcb hlcb n hn)
  · intro key lcb hlcb hshp
    exact (h.shaped key lcb hlcb hshp).of_object (hobj key lcb hlcb)

lemma attr_of_checkLcbWrite {render : Render} {lcbs : Table String LcbState}
    (h : checkLcbWrite render m lcbs key attr v = .ok ()) : attr ∉ rangeAttrs := by
  unfold checkLcbWrite at h
  split at h
  · cases h
  split at h
  next hat =>
    rw [hat]
    decide
  split at h
  next hat =>
    rcases hat with rfl | rfl | rfl <;> decide
  · cases h

section
variable {object : String} {fc : Fc} {path : List String} (hpath : Access.writePath item = some (object, fc, path))
include hpath

lemma lcbAttr_putItem (hne : writeSite domain item = some lcb.path → fc = .lg → path ≠ [n]) :
    lcbAttr (putItem m domain item v) lcb n = lcbAttr m lcb n := by
  rw [putItem, hpath]
  by_cases heq : lcb.path = (domain, (Text.split '$' item).headD "", object)
  · have hsite := hne ((writeSite_of_path domain hpath).trans (congrArg some heq.symm))
    obtain ⟨h1, h2, h3⟩ := triple_inj heq
    rw [lcbAttr, lcbAttr, h1, h2, h3, Model.object_objectMut_same m (writeBelowMut_name path)]
    cases m.object domain ((Text.split '$' item).headD "") object with
    | none => rfl
    | some o => exact fcValue_writeBelowMut hsite o
  · rw [lcbAttr, lcbAttr, Model.object_objectMut_other m (writeBelowMut_name path) heq]

lemma rangeShaped_putItem (h : RangeShaped m lcb) : RangeShaped (putItem m domain item v) lcb := by
  apply h.of_places
  intro o ho
  rw [putItem, hpath]
  by_cases heq : lcb.path = (domain, (Text.split '$' item).headD "", object)
  · obtain ⟨h1, h2, h3⟩ := triple_inj heq
    rw [h1, h2, h3] at ho ⊢
    exact ⟨_, by rw [Model.object_objectMut_same m (writeBelowMut_name path), ho, map_some],
      attrPlaces_writeBelowMut (keepsPlace_put v) path⟩
  · exact ⟨o, (Model.object_objectMut_other m (writeBelowMut_name path) heq).trans ho, rfl⟩

end

variable (ht : Logging.forLogs (s.target domain item))
include ht

lemma entryCounter_writeOne : (s.writeOne cfg w domain item v).1.entryCounter = s.entryCounter := by
  refine writeOne_rule rfl (fun t controlBlock res h => ?_) fun s₁ _ hsto => ?_
  · obtain ⟨m, changes, -, heq⟩ := onlyTracked_track controlBlock res
    rw [heq]
    exact h
  obtain ⟨changes, -, rfl⟩ := store_eq_ok hsto
  cases htgt : s.target domain item with
  | log | plain => rfl
  | report | setting | sampled =>
    rw [htgt] at ht
    cases ht

lemma rangesKept_effect {s₁ : Inner} (hs : s.Hosted) (hx : s.KeepsOff cfg domain item)
    (hchk : s.check w domain v (s.target domain item) = .ok ())
    (hsto : s.store cfg w domain item v (s.target domain item).controlBlock = .ok s₁) :
    RangesKept s (effect w domain v s s₁ (s.target domain item)).1 := by
  obtain ⟨changes, ⟨ln, da, -, hda, hpm, -⟩, rfl⟩ := store_eq_ok hsto
  obtain ⟨⟨object, fc, path⟩, hpath, -⟩ := bind_eq_some_iff.mp hda
  have hshp : s.lcbs.All fun _ lcb => RangeShaped s.model lcb → RangeShaped (putItem s.model domain item v) lcb :=
    fun _ _ _ => rangeShaped_putItem hpath
  cases htgt : s.target domain item with
  | log key attr =>
    obtain ⟨lcb, rest, hlcb, hd, hat, hsplit⟩ := lcbKey_own hs (addressed_of_target htgt)
    have hnot : attr ∉ rangeAttrs := attr_of_checkLcbWrite (htgt ▸ hchk)
    refine ⟨rfl, lcbs_onLcbWrite, fun key' lcb' _ n hn => lcbAttr_putItem hpath ?_, hshp⟩
    -- The path begins with an attribute that clients may write.
    rintro - - rfl
    rw [Access.writePath, hsplit] at hpath
    rcases rest with _ | ⟨first, rest⟩
    · cases hpath
    obtain rfl : attr = first := hat
    obtain ⟨-, -, heq⟩ := triple_inj (some.inj hpath)
    obtain ⟨rfl, -⟩ := cons.inj heq
    exact hnot hn
  | plain =>
    refine ⟨rfl, fun _ lcb h => ⟨lcb, h, rfl, rfl⟩, fun key lcb hlcb n _ => lcbAttr_putItem hpath ?_, hshp⟩
    intro hsite
    rw [htgt] at hpm
    exact no_log_of_plain hx htgt hda (hpm rfl) hpath key lcb hlcb hsite n
  | report | setting | sampled =>
    rw [htgt] at ht
    cases ht

lemma rangesKept_writeOne (hs : s.Hosted) (hx : s.KeepsOff cfg domain item) :
    RangesKept s (s.writeOne cfg w domain item v).1 :=
  writeOne_rule rangesKept_refl (fun _ _ _ h => h.track hs _ _) fun _ => rangesKept_effect ht hs hx

end Inner

namespace Logging

variable {j : JournalName} {oldest newest : LogEntry}

def Shows (m : Model) (lcb : LcbState) (oldest newest : LogEntry) : Prop :=
  ∀ a ∈ range oldest newest, lcbAttr m lcb a.1 = some a.2

lemma shows_setRange (h : RangeShaped m lcb) : Shows (setRange m lcb oldest newest) lcb oldest newest := by
  have hnames : (range oldest newest).map Prod.fst = rangeAttrs := rfl
  intro a ha
  refine lcbAttr_setAll_same h ?_ ?_ ha
  · intro x hx
    rw [← hnames]
    exact mem_map_of_mem hx
  · rw [hnames]
    decide

def syncBlocks (j : JournalName) (oldest newest : LogEntry) (lcbs : List (Sigma fun _ : String => LcbState))
    (m : Model) : Model :=
  lcbs.foldl (fun m e => if e.2.journal = some j then setRange m e.2 oldest newest else m) m

lemma rangeShaped_syncBlocks (lcbs : List (Sigma fun _ : String => LcbState)) (h : RangeShaped m lcb) :
    RangeShaped (syncBlocks j oldest newest lcbs m) lcb := by
  induction lcbs generalizing m with
  | nil => exact h
  | cons e lcbs ih =>
    rw [syncBlocks, foldl_cons]
    apply ih
    split
    · exact rangeShaped_setAll _ h
    · exact h

lemma object_syncBlocks {lcbs : List (Sigma fun _ : String => LcbState)}
    (hne : ∀ e ∈ lcbs, e.2.journal = some j → (d, l, o) ≠ e.2.path) :
    (syncBlocks j oldest newest lcbs m).object d l o = m.object d l o := by
  induction lcbs generalizing m with
  | nil => rfl
  | cons e lcbs ih =>
    have hrs := ih (m := if e.2.journal = some j then setRange m e.2 oldest newest else m)
      fun x hx => hne x (mem_cons_of_mem _ hx)
    rw [syncBlocks, foldl_cons]
    refine hrs.trans ?_
    split
    · next hj => exact object_setAll_other _ (hne e mem_cons_self hj)
    · rfl

lemma shows_syncBlocks {lcbs : List (Sigma fun _ : String => LcbState)}
    (hpaths : lcbs.Pairwise fun e e' => e.2.path ≠ e'.2.path) (hshp : ∀ e ∈ lcbs, RangeShaped m e.2)
    {e : Sigma fun _ : String => LcbState} (he : e ∈ lcbs) (hj : e.2.journal = some j) :
    Shows (syncBlocks j oldest newest lcbs m) e.2 oldest newest := by
  induction lcbs generalizing m with
  | nil => cases he
  | cons x lcbs ih =>
    rw [pairwise_cons] at hpaths
    rw [syncBlocks, foldl_cons]
    cases he with
    | head =>
      rw [if_pos hj]
      intro a ha
      have hkp : (syncBlocks j oldest newest lcbs (setRange m e.2 oldest newest)).object
          e.2.domain e.2.ln e.2.name = _ := object_syncBlocks fun y hy _ => hpaths.1 y hy
      have hrd := shows_setRange (hshp e mem_cons_self) a ha
      exact (lcbAttr_of_object hkp a.1).trans hrd
    | tail _ he =>
      apply ih hpaths.2 _ he
      intro y hy
      have hy' := hshp y (mem_cons_of_mem _ hy)
      split
      · exact rangeShaped_setAll _ hy'
      · exact hy'

end Logging

open Inner Logging TimeUtil

def zeroEntry : LogEntry := { id := List.replicate 8 0, time := binaryTimeEpoch, vars := [] }

lemma LogOptions.limit_pos (o : LogOptions) : 0 < o.limit := by
  unfold limit defaultLogCapacity
  split
  · omega
  · omega

namespace Logging
variable {cfg : Config} {o : LogOptions} {s t : Logging} {j : JournalName} {now : SystemTime}

def appendedTo (s : Logging) (j : JournalName) : List LogEntry :=
  (s.appended.filter fun x => x.1 = j).map Prod.snd

/-- A log control block shows the range of its log. -/
def Describes (m : Model) (lcb : LcbState) (entries : List LogEntry) : Prop :=
  Shows m lcb (entries.headD zeroEntry) (entries.getLastD zeroEntry)

/-- Each log holds at most its capacity of entries, in order and with different identifiers, and each log
control block shows the range of its log. -/
structure Accurate (o : LogOptions) (s : Logging) : Prop where
  bounded : s.journals.All fun _ entries => entries.length ≤ o.limit
  ordered : s.journals.All fun j entries => entries <:+ s.appendedTo j
  distinct : s.journals.All fun _ entries => (entries.map LogEntry.id).Nodup
  described : s.inner.lcbs.All fun _ lcb => ∀ j, lcb.journal = some j →
    ∃ entries, s.journals.lookup j = some entries ∧ Describes s.inner.model lcb entries

/-- The identifiers of entries are some of those issued so far, in their order. -/
def Numbered (seed : UInt32) (count : ℕ) (entries : List LogEntry) : Prop :=
  ∃ ns : List ℕ, entries.map LogEntry.id = ns.map (entryNo seed) ∧ ns.Pairwise (· < ·) ∧ ∀ n ∈ ns, n ≤ count

variable {seed : UInt32} {count : ℕ} {entries : List LogEntry}

section
variable (h : Numbered seed count entries)
include h

lemma Numbered.drop (k : ℕ) : Numbered seed count (entries.drop k) := by
  obtain ⟨ns, hids, hlt, hle⟩ := h
  refine ⟨ns.drop k, by rw [map_drop, hids, map_drop], hlt.drop, ?_⟩
  intro n hn
  exact hle n (mem_of_mem_drop hn)

lemma Numbered.append_one {e : LogEntry} (he : e.id = entryNo seed (count + 1)) :
    Numbered seed (count + 1) (entries ++ [e]) := by
  obtain ⟨ns, hids, hlt, hle⟩ := h
  refine ⟨ns ++ [count + 1], by simp [hids, he], ?_, ?_⟩
  · rw [pairwise_append]
    refine ⟨hlt, pairwise_singleton _ _, ?_⟩
    intro a ha b hb
    have hle' := hle a ha
    rw [mem_singleton] at hb
    omega
  intro n hn
  rcases mem_append.mp hn with hn | hn
  · have hle' := hle n hn
    omega
  · rw [mem_singleton] at hn
    omega

lemma Numbered.mono {count' : ℕ} (hle : count ≤ count') : Numbered seed count' entries := by
  obtain ⟨ns, hids, hlt, hns⟩ := h
  exact ⟨ns, hids, hlt, fun n hn => (hns n hn).trans hle⟩

lemma Numbered.nodup (hcnt : count < 2 ^ 32) : (entries.map LogEntry.id).Nodup := by
  obtain ⟨ns, hids, hlt, hle⟩ := h
  rw [hids]
  refine List.Nodup.map_on ?_ (hlt.imp fun h => Nat.ne_of_lt h)
  intro a ha b hb heq
  have ha' := hle a ha
  have hb' := hle b hb
  exact entryNo_injective (by omega) (by omega) heq

end

/-- What holds along a run: the claims on the logs, and what they rest on. -/
structure Sound (cfg : Config) (o : LogOptions) (s : Logging) : Prop where
  hosted : s.inner.Hosted
  shaped : s.inner.lcbs.All fun _ lcb => RangeShaped s.inner.model lcb
  bounded : s.journals.All fun _ entries => entries.length ≤ o.limit
  ordered : s.journals.All fun j entries => entries <:+ s.appendedTo j
  numbered : s.journals.All fun _ entries => Numbered cfg.entrySeed s.inner.entryCounter entries
  few : s.inner.entryCounter < 2 ^ 32
  described : s.inner.lcbs.All fun _ lcb => ∀ j, lcb.journal = some j →
    ∃ entries, s.journals.lookup j = some entries ∧ Describes s.inner.model lcb entries

lemma Sound.accurate (h : Sound cfg o s) : Accurate o s :=
  ⟨h.bounded, h.ordered, fun j entries hj => (h.numbered j entries hj).nodup h.few, h.described⟩

def withModel (s : Logging) (m : Model) : Logging := { s with inner := { s.inner with model := m } }

lemma sync_eq (j : JournalName) (s : Logging) : ∃ m, sync j s = s.withModel m ∧
      (m = s.inner.model ∨ ∃ oldest newest, m = syncBlocks j oldest newest s.inner.lcbs.entries s.inner.model) := by
  unfold sync
  split
  · exact ⟨_, rfl, .inl rfl⟩
  · exact ⟨_, rfl, .inl rfl⟩
  · next oldest rest _ => exact ⟨_, rfl, .inr ⟨oldest, _, rfl⟩⟩

lemma sync_of_ne_nil (hj : s.journals.lookup j = some entries) (hne : entries ≠ []) :
    sync j s = s.withModel (syncBlocks j (entries.headD zeroEntry) (entries.getLastD zeroEntry)
      s.inner.lcbs.entries s.inner.model) := by
  rcases entries with _ | ⟨oldest, rest⟩
  · exact absurd rfl hne
  unfold sync
  rw [hj]
  rfl

lemma paths_pairwise (hs : s.inner.Hosted) : s.inner.lcbs.entries.Pairwise fun e e' => e.2.path ≠ e'.2.path := by
  have hkeys : s.inner.lcbs.entries.Pairwise fun e e' => e.1 ≠ e'.1 := by
    have h := s.inner.lcbs.nodupKeys
    rw [List.NodupKeys, keys, List.Nodup, pairwise_map] at h
    exact h
  refine hkeys.imp_of_mem ?_
  intro e e' he he' hne hpath
  exact hne (hs.lcb_eq (AList.mem_lookup_iff.mpr he') (AList.mem_lookup_iff.mpr he) hpath)

lemma hosted_sync (hs : s.inner.Hosted) (j : JournalName) : (sync j s).inner.Hosted := by
  obtain ⟨m, heq, hm⟩ := sync_eq j s
  rw [heq]
  refine hs.of_sites rfl ?_ (fun key lcb h => ⟨lcb, h, rfl⟩) rfl
  rintro b hb ⟨x, hx, hobj⟩
  refine ⟨x, ?_, hobj⟩
  rw [← hx]
  obtain rfl | ⟨oldest, newest, rfl⟩ := hm
  · rfl
  apply object_syncBlocks
  intro e he _
  exact Ne.symm (hs.apart e.1 e.2 (AList.mem_lookup_iff.mpr he) b hb)

lemma shaped_sync (h : s.inner.lcbs.All fun _ lcb => RangeShaped s.inner.model lcb) (j : JournalName) :
    (sync j s).inner.lcbs.All fun _ lcb => RangeShaped (sync j s).inner.model lcb := by
  obtain ⟨m, heq, hm⟩ := sync_eq j s
  rw [heq]
  intro key lcb hlcb
  have hlcb' := h key lcb hlcb
  obtain rfl | ⟨oldest, newest, rfl⟩ := hm
  · exact hlcb'
  · exact rangeShaped_syncBlocks _ hlcb'

lemma sync_rest (j : JournalName) (s : Logging) :
    (sync j s).journals = s.journals ∧ (sync j s).appended = s.appended ∧ (sync j s).inner.lcbs = s.inner.lcbs ∧
      (sync j s).inner.entryCounter = s.inner.entryCounter := by
  obtain ⟨m, heq, -⟩ := sync_eq j s
  rw [heq]
  exact ⟨rfl, rfl, rfl, rfl⟩

lemma described_sync (hs : s.inner.Hosted) (hshp : s.inner.lcbs.All fun _ lcb => RangeShaped s.inner.model lcb)
    (hj : s.journals.lookup j = some entries) (hne : entries ≠ [])
    (hoths : s.inner.lcbs.All fun _ lcb => ∀ j', lcb.journal = some j' → j' ≠ j →
      ∃ es, s.journals.lookup j' = some es ∧ Describes s.inner.model lcb es) :
    (sync j s).inner.lcbs.All fun _ lcb => ∀ j', lcb.journal = some j' →
      ∃ es, (sync j s).journals.lookup j' = some es ∧ Describes (sync j s).inner.model lcb es := by
  rw [sync_of_ne_nil hj hne]
  intro key lcb hlcb j' hj'
  have hm := AList.mem_lookup_iff.mp hlcb
  by_cases heq : j' = j
  · subst heq
    refine ⟨entries, hj, ?_⟩
    refine shows_syncBlocks (paths_pairwise hs) ?_ hm hj'
    intro e he
    exact hshp e.1 e.2 (AList.mem_lookup_iff.mpr he)
  obtain ⟨es, hes, hdesc⟩ := hoths key lcb hlcb j' hj' heq
  refine ⟨es, hes, ?_⟩
  intro a ha
  have hobj : (syncBlocks j (entries.headD zeroEntry) (entries.getLastD zeroEntry) s.inner.lcbs.entries
      s.inner.model).object lcb.domain lcb.ln lcb.name = s.inner.model.object lcb.domain lcb.ln lcb.name := by
    apply object_syncBlocks
    intro e he hej hpath
    -- A block in the same place is the same block, and writes to the other log.
    have hkey := hs.lcb_eq (AList.mem_lookup_iff.mpr he) hlcb hpath
    have hsm : s.inner.lcbs.lookup key = some e.2 := by
      rw [hkey]
      exact AList.mem_lookup_iff.mpr he
    obtain rfl := mem_unique hlcb hsm
    rw [hej] at hj'
    exact heq (some.inj hj').symm
  exact (lcbAttr_of_object hobj a.1).trans (hdesc a ha)

def store (s : Logging) (count : ℕ) (j : JournalName) (entries : List LogEntry)
    (appended : List (JournalName × LogEntry)) : Logging :=
  { inner := { s.inner with entryCounter := count }
    journals := s.journals.insert j entries
    appended := appended }

variable {appended : List (JournalName × LogEntry)} {entry : LogEntry} {old : List LogEntry}

lemma all_store {P : JournalName → List LogEntry → Prop} (hj : P j entries)
    (hrs : ∀ j' es, j' ≠ j → s.journals.lookup j' = some es → P j' es) :
    (sync j (s.store count j entries appended)).journals.All P := by
  rw [(sync_rest j _).1]
  intro j' es hes
  by_cases heq : j' = j
  · subst heq
    have hsm : (s.store count j' entries appended).journals.lookup j' = some entries := AList.lookup_insert _
    exact mem_unique hsm hes ▸ hj
  have hoth : (s.store count j entries appended).journals.lookup j' = s.journals.lookup j' :=
    AList.lookup_insert_ne heq
  exact hrs j' es heq (hoth ▸ hes)

lemma hosted_store (h : s.inner.Hosted) : (s.store count j entries appended).inner.Hosted :=
  h.of_sites rfl (fun _ _ hb => hb) (fun _ lcb hlcb => ⟨lcb, hlcb, rfl⟩) rfl

lemma held_store (h : s.journals.All fun j entries => entries <:+ s.appendedTo j)
    (hj : entries <:+ (s.store count j entries appended).appendedTo j)
    (hoths : ∀ j', j' ≠ j → (s.store count j entries appended).appendedTo j' = s.appendedTo j') :
    (sync j (s.store count j entries appended)).journals.All fun j' es =>
      es <:+ (sync j (s.store count j entries appended)).appendedTo j' := by
  have hto (j' : JournalName) : (sync j (s.store count j entries appended)).appendedTo j' =
      (s.store count j entries appended).appendedTo j' := by
    unfold appendedTo
    rw [(sync_rest j _).2.1]
  refine all_store ?_ ?_
  · rw [hto]
    exact hj
  intro j' es hne hes
  rw [hto, hoths j' hne]
  exact h j' es hes

lemma appendedTo_append (j' : JournalName) : (s.store count j entries (s.appended ++ [(j, entry)])).appendedTo j' =
      if j' = j then s.appendedTo j' ++ [entry] else s.appendedTo j' := by
  unfold appendedTo store
  by_cases heq : j' = j
  · simp [heq]
  · simp [heq, Ne.symm heq]

lemma suffix_append (h : old <:+ s.appendedTo j) (k : ℕ) :
    (old ++ [entry]).drop k <:+ (s.store count j entries (s.appended ++ [(j, entry)])).appendedTo j := by
  obtain ⟨before, hbef⟩ := h
  have hsuffix : old ++ [entry] <:+ s.appendedTo j ++ [entry] := ⟨before, by rw [← hbef, append_assoc]⟩
  rw [appendedTo_append, if_pos rfl]
  exact (drop_suffix _ _).trans hsuffix

lemma sound_store (h : Sound cfg o s) (hold : s.journals.lookup j = some old) (hcnt : s.inner.entryCounter ≤ count)
    (hfew : count < 2 ^ 32) (hbounded : entries.length ≤ o.limit)
    (hordered : entries <:+ (s.store count j entries appended).appendedTo j)
    (hoths : ∀ j', j' ≠ j → (s.store count j entries appended).appendedTo j' = s.appendedTo j')
    (hnumbered : Numbered cfg.entrySeed count entries)
    (hdescribed : entries ≠ [] ∨ entries = old ∨ s.inner.lcbs.All fun _ lcb => lcb.journal ≠ some j) :
    Sound cfg o (sync j (s.store count j entries appended)) := by
  have hsm : (s.store count j entries appended).journals.lookup j = some entries := AList.lookup_insert _
  have hhosted : (s.store count j entries appended).inner.Hosted := hosted_store h.hosted
  obtain ⟨-, -, -, hctr⟩ := sync_rest j (s.store count j entries appended)
  constructor
  case hosted => exact hosted_sync hhosted j
  case shaped => exact shaped_sync (s := s.store count j entries appended) h.shaped j
  case bounded => exact all_store hbounded fun j' es _ hes => h.bounded j' es hes
  case ordered => exact held_store h.ordered hordered hoths
  case numbered =>
    rw [hctr]
    exact all_store hnumbered fun j' es _ hes => (h.numbered j' es hes).mono hcnt
  case few =>
    rw [hctr]
    exact hfew
  case described =>
    have hrs : (s.store count j entries appended).inner.lcbs.All fun _ lcb => ∀ j', lcb.journal = some j' →
        j' ≠ j → ∃ es, (s.store count j entries appended).journals.lookup j' = some es ∧
          Describes s.inner.model lcb es := by
      intro key lcb hlcb j' hj' hne
      obtain ⟨es, hes, hdesc⟩ := h.described key lcb hlcb j' hj'
      exact ⟨es, (AList.lookup_insert_ne hne).trans hes, hdesc⟩
    by_cases hemp : entries = []
    · -- Nothing is set for an empty log, so it has to be as it was, or no block may show it.
      have hsync : sync j (s.store count j entries appended) = s.store count j entries appended := by
        unfold sync
        rw [hsm, hemp]
      rw [hsync]
      intro key lcb hlcb j' hj'
      by_cases heq : j' = j
      · subst heq
        obtain hne | rfl | hno := hdescribed
        · exact absurd hemp hne
        · obtain ⟨es, hes, hdesc⟩ := h.described key lcb hlcb j' hj'
          obtain rfl := mem_unique hold hes
          exact ⟨_, hsm, hdesc⟩
        · exact absurd hj' (hno key lcb hlcb)
      · exact hrs key lcb hlcb j' hj' heq
    · exact described_sync hhosted h.shaped hsm hemp hrs

lemma append_cases (cfg : Config) (o : LogOptions) (s : Logging) (j : JournalName) (now : SystemTime)
    (vars : List (String × Value)) :
    s.append cfg o now j vars = s ∨ ∃ old entry, s.journals.lookup j = some old ∧
      entry.id = entryNo cfg.entrySeed (s.inner.entryCounter + 1) ∧ entry.time = toMillis now ∧
      s.append cfg o now j vars = sync j (s.store (s.inner.entryCounter + 1) j
        ((old ++ [entry]).drop ((old ++ [entry]).length - o.limit)) (s.appended ++ [(j, entry)])) := by
  unfold append
  split
  · exact .inl rfl
  split
  · exact .inl rfl
  · next old hold => exact .inr ⟨old, _, hold, rfl, rfl, rfl⟩

lemma initializeJournal_cases (o : LogOptions) (s : Logging) (j : JournalName) (limit : Option SystemTime)
    (limitEntry : Option (List UInt8)) :
    (s.initializeJournal o j limit limitEntry).1 = s ∨ ∃ old, s.journals.lookup j = some old ∧ o.deletable ∧
      (s.initializeJournal o j limit limitEntry).1 =
        sync j (s.store s.inner.entryCounter j (old.drop (deleted limit limitEntry old)) s.appended) := by
  unfold initializeJournal
  split
  · exact .inl rfl
  next old hold =>
  split
  · exact .inl rfl
  · next hdeletable => exact .inr ⟨old, hold, by simpa using hdeletable, rfl⟩

def logTime : LogStep → Option SystemTime
  | .update _ now => some now
  | .integrity _ _ now => some now
  | _ => none

def appendAll (cfg : Config) (o : LogOptions) (now : SystemTime) (s : Logging)
    (writes : List (JournalName × List (String × Value))) : Logging :=
  writes.foldl (fun s write => s.append cfg o now write.1 write.2) s

variable {x : LogStep} {limitEntry : Option (List UInt8)}

lemma step_of_logTime (cfg : Config) (o : LogOptions) (s : Logging) (hx : logTime x = some now) :
    ∃ writes, writes.length ≤ s.inner.lcbs.entries.length ∧ s.step cfg o x = s.appendAll cfg o now writes := by
  cases x with
  | update changes now' =>
    cases hx
    show ∃ writes, _ ∧ s.onUpdate cfg o now changes = _
    unfold onUpdate
    split
    · exact ⟨[], Nat.zero_le _, rfl⟩
    refine ⟨_, ?_, rfl⟩
    have hle := length_filterMap_le (logged cfg.render s.inner.model changes) (lcbsInOrder s.inner.lcbs)
    rwa [lcbsInOrder, length_map, length_insertionSort] at hle
  | integrity key generation now' =>
    cases hx
    show ∃ writes, _ ∧ s.logAll cfg o now key generation = _
    unfold logAll
    split
    · exact ⟨[], Nat.zero_le _, rfl⟩
    next lcb hlcb =>
    have hone := length_pos_of_mem (AList.mem_lookup_iff.mp hlcb)
    split
    · exact ⟨[], Nat.zero_le _, rfl⟩
    split
    · exact ⟨[], Nat.zero_le _, rfl⟩
    · exact ⟨[(_, _)], hone, rfl⟩
  | delete | write => cases hx

variable {vars : List (String × Value)}

lemma sound_append (h : Sound cfg o s) (hfew : s.inner.entryCounter + 1 < 2 ^ 32) :
    Sound cfg o (s.append cfg o now j vars) ∧
      (s.append cfg o now j vars).inner.entryCounter ≤ s.inner.entryCounter + 1 := by
  obtain heq | ⟨old, entry, hold, hid, -, heq⟩ := append_cases cfg o s j now vars
  · rw [heq]
    exact ⟨h, by omega⟩
  rw [heq]
  have hkp : (old ++ [entry]).drop ((old ++ [entry]).length - o.limit) ≠ [] := by
    have hpos := o.limit_pos
    rw [Ne, drop_eq_nil_iff, length_append, length_singleton]
    omega
  refine ⟨?_, Nat.le_of_eq (sync_rest j _).2.2.2⟩
  apply sound_store h hold (by omega) hfew
  · rw [length_drop]
    omega
  · exact suffix_append (h.ordered j old hold) _
  · intro j' hne
    rw [appendedTo_append, if_neg hne]
  · exact ((h.numbered j old hold).append_one hid).drop _
  · exact .inl hkp

lemma sound_appendAll {writes : List (JournalName × List (String × Value))} (h : Sound cfg o s)
    (hfew : s.inner.entryCounter + writes.length < 2 ^ 32) : Sound cfg o (s.appendAll cfg o now writes) := by
  induction writes generalizing s with
  | nil => exact h
  | cons write writes ih =>
    rw [length_cons] at hfew
    obtain ⟨hone, hcnt⟩ : Sound cfg o (s.append cfg o now write.1 write.2) ∧ _ := sound_append h (by omega)
    have hleft : (s.append cfg o now write.1 write.2).inner.entryCounter + writes.length < 2 ^ 32 := by omega
    exact ih hone hleft

/-- A deletion that leaves no entry: it has no limit, or all entries are up to the limiting time and
none but the last is the limiting entry. -/
def Empties (limit : Option SystemTime) (limitEntry : Option (List UInt8)) (entries : List LogEntry) : Prop :=
  match limit with
  | none => True
  | some t => (∀ e ∈ entries, e.time ≤ t) ∧ ∀ e ∈ entries.dropLast, some e.id ≠ limitEntry

lemma empties_of_deleteCount {t : SystemTime}
    (h : entries.length ≤ deleteCount t limitEntry entries) : Empties (some t) limitEntry entries := by
  induction entries with
  | nil => exact ⟨nofun, nofun⟩
  | cons e entries ih =>
    rw [deleteCount, length_cons] at h
    split at h
    · omega
    next htime =>
    split at h
    · obtain rfl : entries = [] := length_eq_zero_iff.mp (by omega)
      refine ⟨?_, nofun⟩
      intro x hx
      rw [mem_singleton.mp hx]
      exact not_lt.mp htime
    next hentry =>
    obtain ⟨htimes, hids⟩ := ih (by omega)
    constructor
    · intro x hx
      rcases mem_cons.mp hx with rfl | hx
      · exact not_lt.mp htime
      · exact htimes x hx
    intro x hx
    rcases entries with _ | ⟨y, entries⟩
    · cases hx
    rcases mem_cons.mp hx with rfl | hx
    · exact Ne.symm hentry
    · exact hids x hx

lemma sound_delete {limit : Option SystemTime} (h : Sound cfg o s)
    (hmeets : o.deletable → ∀ entries, s.journals.lookup j = some entries → Empties limit limitEntry entries →
      entries = [] ∨ s.inner.lcbs.All fun _ lcb => lcb.journal ≠ some j) :
    Sound cfg o (s.initializeJournal o j limit limitEntry).1 := by
  obtain heq | ⟨old, hold, hdel, heq⟩ := initializeJournal_cases o s j limit limitEntry
  · rw [heq]
    exact h
  rw [heq]
  apply sound_store h hold le_rfl h.few
  · have hb := h.bounded j old hold
    rw [length_drop]
    omega
  · exact (drop_suffix _ _).trans (h.ordered j old hold)
  · exact fun _ _ => rfl
  · exact (h.numbered j old hold).drop _
  by_cases hemp : old.drop (deleted limit limitEntry old) = []
  · right
    have hall : Empties limit limitEntry old := by
      cases limit with
      | none => trivial
      | some t => exact empties_of_deleteCount (drop_eq_nil_iff.mp hemp)
    rcases hmeets hdel old hold hall with rfl | hno
    · exact .inl drop_nil
    · exact .inr hno
  · exact .inl hemp

variable {w : WriteCtx} {domain item : String} {v : Value}

lemma sound_write (h : Sound cfg o s) (hw : w.ctx.render = cfg.render)
    (hlog : forLogs (s.inner.target domain item)) (hx : s.inner.KeepsOff cfg domain item) :
    Sound cfg o { s with inner := (s.inner.writeOne cfg w domain item v).1 } := by
  have hranges : s.inner.RangesKept (s.inner.writeOne cfg w domain item v).1 := rangesKept_writeOne hlog h.hosted hx
  have hcnt : (s.inner.writeOne cfg w domain item v).1.entryCounter = s.inner.entryCounter :=
    entryCounter_writeOne hlog
  constructor
  case hosted => exact (kept_writeOne h.hosted ⟨hw, hx⟩).2
  case shaped =>
    intro key lcb' hlcb'
    obtain ⟨lcb, hlcb, hpath, -⟩ := hranges.lcbs key lcb' hlcb'
    exact (hranges.shaped key lcb hlcb (h.shaped key lcb hlcb)).of_path hpath
  case bounded => exact h.bounded
  case ordered => exact h.ordered
  case numbered =>
    intro j entries hj
    rw [hcnt]
    exact h.numbered j entries hj
  case few =>
    rw [hcnt]
    exact h.few
  case described =>
    intro key lcb' hlcb' j hj
    obtain ⟨lcb, hlcb, hpath, hjournal⟩ := hranges.lcbs key lcb' hlcb'
    obtain ⟨entries, hent, hdesc⟩ := h.described key lcb hlcb j (hjournal ▸ hj)
    refine ⟨entries, hent, ?_⟩
    intro a ha
    have hnm : a.1 ∈ rangeAttrs := mem_map_of_mem ha
    rw [lcbAttr_of_path hpath, hranges.attrs key lcb hlcb a.1 hnm]
    exact hdesc a ha

variable {opts : Options} {m : Model}

lemma lcbObject_new (hw : WellHosted (blocksModel opts m)) : (Inner.new opts m).lcbs.All fun _ lcb => ∃ ld inst ln lc,
      (servedModel opts m).object lcb.domain lcb.ln lcb.name = some (buildLcbObject ld inst ln lc) := by
  intro key lcb hlcb
  obtain ⟨ld, hld, ln, hln, lc, hlc, hpath, -⟩ := Inner.log_place hw key lcb hlcb
  obtain ⟨h1, h2, h3⟩ := triple_inj hpath
  obtain ⟨ld0, hld0, rfl⟩ := mem_map.mp hld
  obtain ⟨ln0, hln0, rfl⟩ := mem_map.mp hln
  have hm : buildLcbObject ld0.name ld0.inst ln0.name lc ∈
      ln0.objects ++ controlBlockObjects ld0.name ld0.inst ln0 :=
    mem_append_right _ (mem_append_right _ (mem_map_of_mem hlc))
  refine ⟨ld0.name, ld0.inst, ln0.name, lc, ?_⟩
  rw [h1, h2, h3]
  exact object_materialiseModel hw.toWellNamed hld hln (mem_append_left _ hm)

lemma journal_new : (Inner.new opts m).lcbs.All fun _ lcb => ∀ j, lcb.journal = some j →
    j ∈ journalNames (servedModel opts m) := by
  apply logs_new
  · intro ld hld ln hln lc hlc hsome j hj
    refine mem_append_right _ (mem_flatMap.mpr ⟨ld, hld, mem_flatMap.mpr ⟨ln, hln, ?_⟩⟩)
    refine mem_filterMap.mpr ⟨lc, hlc, ?_⟩
    rw [if_neg hsome]
    exact hj
  intro _ lcb hj
  dsimp only [LcbState.startIntegrity]
  split <;> exact hj

variable {t : Table JournalName (List LogEntry)} {inst ld ln : String} {lc : LogControl} {lcb : LcbState}

lemma lookup_journals (names : List JournalName)
    (h : j ∈ names ∨ t.lookup j = some []) : (names.foldl (fun t j => t.insert j []) t).lookup j = some [] := by
  induction names generalizing t with
  | nil => exact h.resolve_left nofun
  | cons n names ih =>
    apply ih
    by_cases heq : j = n
    · subst heq
      exact .inr (AList.lookup_insert t)
    · rw [AList.lookup_insert_ne heq]
      exact h.imp_left fun hm => (mem_cons.mp hm).resolve_left heq

lemma empty_journals (names : List JournalName) (ht : t.All fun _ entries => entries = []) :
    (names.foldl (fun t j => t.insert j []) t).All fun _ entries => entries = [] := by
  induction names generalizing t with
  | nil => exact ht
  | cons n names ih => exact ih (ht.insert rfl)

section
variable (h : m.object lcb.domain lcb.ln lcb.name = some (buildLcbObject ld inst ln lc))
include h

lemma rangeShaped_build : RangeShaped m lcb := by
  refine ⟨_, h, ?_⟩
  have hplaces : attrPlaces (buildLcbObject ld inst ln lc) =
      ["LogEna", "LogRef", "DatSet", "OldEntrTm", "NewEntrTm", "OldEnt", "NewEnt", "TrgOps", "IntgPd"].map
        fun n => (n, .lg) := rfl
  rw [hplaces]
  decide

lemma describes_build : Describes m lcb [] := by
  intro a ha
  rw [lcbAttr, h, bind_some]
  simp only [headD_nil, getLastD_nil, range, mem_cons, not_mem_nil, or_false] at ha
  rcases ha with rfl | rfl | rfl | rfl <;> rfl

end

lemma sound_new (hw : WellHosted (blocksModel opts m)) : Sound cfg o (new opts m) := by
  have hemp : (new opts m).journals.All fun _ entries => entries = [] := empty_journals _ Table.all_empty
  constructor
  case hosted => exact hosted_new hw
  case shaped =>
    intro key lcb hlcb
    obtain ⟨ld, inst, ln, lc, hobj⟩ := lcbObject_new hw key lcb hlcb
    exact rangeShaped_build hobj
  case bounded =>
    intro j entries hj
    rw [hemp j entries hj]
    exact Nat.zero_le _
  case ordered =>
    intro j entries hj
    rw [hemp j entries hj]
    exact nil_suffix
  case numbered =>
    intro j entries hj
    rw [hemp j entries hj]
    exact ⟨[], rfl, List.Pairwise.nil, nofun⟩
  case few => exact Nat.two_pow_pos 32
  case described =>
    intro key lcb hlcb j hj
    obtain ⟨ld, inst, ln, lc, hobj⟩ := lcbObject_new hw key lcb hlcb
    exact ⟨[], lookup_journals _ (.inl (journal_new key lcb hlcb j hj)), describes_build hobj⟩

/-- A step leaves identifiers to issue, deletes no last entry of a log that a control block describes, and goes
around no rules of a control block. -/
def Meets (cfg : Config) (o : LogOptions) (s : Logging) : LogStep → Prop
  | .update .. => s.inner.entryCounter + s.inner.lcbs.entries.length < 2 ^ 32
  | .integrity .. => s.inner.entryCounter + s.inner.lcbs.entries.length < 2 ^ 32
  | .delete j limit limitEntry => o.deletable = true → ∀ entries, s.journals.lookup j = some entries →
      Empties limit limitEntry entries → entries = [] ∨ s.inner.lcbs.All fun _ lcb => lcb.journal ≠ some j
  | .write _ domain item _ => s.inner.KeepsOff cfg domain item

lemma sound_step (h : Sound cfg o s) (hx : Meets cfg o s x) : Sound cfg o (s.step cfg o x) := by
  cases hnow : logTime x with
  | some now =>
    obtain ⟨writes, hlen, heq⟩ := step_of_logTime cfg o s hnow
    have hfew : s.inner.entryCounter + s.inner.lcbs.entries.length < 2 ^ 32 := by
      cases x with
      | update | integrity => exact hx
      | delete | write => cases hnow
    rw [heq]
    exact sound_appendAll h (by omega)
  | none =>
    cases x with
    | update | integrity => cases hnow
    | delete j limit limitEntry => exact sound_delete h hx
    | write w domain item v =>
      rw [step]
      split
      · next hlog => exact sound_write h rfl hlog hx
      · exact h

lemma sound_run {steps : List LogStep} (h : Sound cfg o s) (hm : Runs.Admitted (step cfg o) (Meets cfg o) s steps) :
    Sound cfg o (s.run cfg o steps) :=
  Runs.induction_admitted (Sound cfg o) (fun _ _ ht hx => sound_step ht hx) h hm

/-- The logs and their control blocks are accurate in every state of a run in which no deletion empties a log
that had entries and a control block, fewer than 2^32 identifiers are issued, and no write goes around the rules of a
control block. -/
theorem logs_accurate (cfg : Config) (o : LogOptions) (opts : Options) (m : Model) (steps : List LogStep)
    (hw : WellHosted (blocksModel opts m)) (hm : Runs.Admitted (step cfg o) (Meets cfg o) (new opts m) steps) :
    Accurate o ((new opts m).run cfg o steps) :=
  (sound_run (sound_new hw) hm).accurate

def statusChanged : ChangeSet := (∅ : ChangeSet).insert (⟨"LD/LLN0.Pos.stVal"⟩, .st) TrgOps.dataChange

def sampleLog : JournalName := ("LD", "LLN0$EventLog")

def sampleRun (steps : List LogStep) : Logging := (new {} (loggedModel "ds")).run sampleConfig { deletable := true } steps

def loggedTwice : List LogStep :=
  [ .update statusChanged ⟨1000000000, 5000000⟩,
    .update statusChanged ⟨1000000001, 0⟩,
    .delete sampleLog (some ⟨1000000000, 5000000⟩) none ]

def loggedAndDeleted : List LogStep := [.update statusChanged ⟨1000000000, 0⟩, .delete sampleLog none none]

/-- The log keeps the second of two entries. -/
theorem second_entry_accurate :
    ((sampleRun loggedTwice).journals.lookup sampleLog).map List.length = some 1 ∧
      Accurate { deletable := true } (sampleRun loggedTwice) := by
  refine ⟨by decide +kernel, ?_⟩
  apply logs_accurate sampleConfig { deletable := true } {} (loggedModel "ds") loggedTwice (by decide +kernel)
  refine ⟨by unfold Meets; decide +kernel, by unfold Meets; decide +kernel, ?_, trivial⟩
  intro _ entries hent hall
  let s := sampleRun [.update statusChanged ⟨1000000000, 5000000⟩, .update statusChanged ⟨1000000001, 0⟩]
  have hlate : (s.journals.lookup sampleLog).map
      (fun es => decide (∀ e ∈ es, e.time ≤ ⟨1000000000, 5000000⟩)) = some false := by decide +kernel
  have hfnd : s.journals.lookup sampleLog = some entries := hent
  rw [hfnd, map_some] at hlate
  exact absurd hall.1 (of_decide_eq_false (some.inj hlate))

/-- After all entries were deleted the control block shows an entry that is no longer there. -/
theorem emptied_log_described :
    ((sampleRun loggedAndDeleted).journals.lookup sampleLog).map List.length = some 0 ∧
      ¬ Accurate { deletable := true } (sampleRun loggedAndDeleted) := by
  let s := sampleRun loggedAndDeleted
  have hemp : (s.journals.lookup sampleLog).map List.length = some 0 := by decide +kernel
  refine ⟨hemp, ?_⟩
  intro h
  have hknown : (s.inner.lcbs.lookup "LD\x00LLN0$LG$lg").map LcbState.journal = some (some sampleLog) := by
    decide +kernel
  obtain ⟨lcb, hlcb, hjournal⟩ := Option.map_eq_some_iff.mp hknown
  obtain ⟨entries, hent, hdesc⟩ := h.described _ lcb hlcb sampleLog hjournal
  have hnil : entries = [] := by
    have hfnd := hent
    rw [hfnd] at hemp
    exact List.length_eq_zero_iff.mp (Option.some.inj hemp)
  subst hnil
  have hnew := hdesc ("NewEnt", .octetString zeroEntry.id) (by simp [range])
  have hshown : ((s.inner.lcbs.lookup "LD\x00LLN0$LG$lg").bind fun lcb =>
      (lcbAttr s.inner.model lcb "NewEnt").map Value.bytes) ≠ some zeroEntry.id := by decide +kernel
  apply hshown
  rw [show s.inner.lcbs.lookup "LD\x00LLN0$LG$lg" = some lcb from hlcb, Option.bind_some]
  exact congrArg (Option.map Value.bytes) hnew

variable {t : Logging}

/-- Nothing that was ever logged is forgotten, and no log disappears. -/
structure Extends (s t : Logging) : Prop where
  appended : s.appended <+: t.appended
  known : ∀ j, (s.journals.lookup j).isSome → (t.journals.lookup j).isSome

lemma Extends.refl (s : Logging) : Extends s s := ⟨prefix_rfl, fun _ h => h⟩

lemma Extends.trans {u : Logging} (h : Extends s t) (h' : Extends t u) : Extends s u :=
  ⟨h.appended.trans h'.appended, fun j hj => h'.known j (h.known j hj)⟩

lemma Extends.appendedTo (h : Extends s t) (j : JournalName) : s.appendedTo j <+: t.appendedTo j := by
  obtain ⟨new, hnew⟩ := h.appended
  unfold Logging.appendedTo
  rw [← hnew, filter_append, map_append]
  exact prefix_append _ _

variable {entries : List LogEntry}

lemma extends_store {count : ℕ} {new : List (JournalName × LogEntry)} :
    Extends s (sync j (s.store count j entries (s.appended ++ new))) := by
  obtain ⟨hjournals, happ, -, -⟩ := sync_rest j (s.store count j entries (s.appended ++ new))
  constructor
  · rw [happ]
    exact prefix_append _ _
  intro j' hj'
  rw [hjournals]
  by_cases heq : j' = j
  · subst heq
    have hsm : (s.store count j' entries (s.appended ++ new)).journals.lookup j' = some entries :=
      AList.lookup_insert _
    rw [hsm]
    rfl
  have hoth : (s.store count j entries (s.appended ++ new)).journals.lookup j' = s.journals.lookup j' :=
    AList.lookup_insert_ne heq
  rw [hoth]
  exact hj'

lemma extends_append (vars : List (String × Value)) : Extends s (s.append cfg o now j vars) := by
  obtain heq | ⟨old, entry, -, -, -, heq⟩ := append_cases cfg o s j now vars
  · rw [heq]
    exact Extends.refl s
  · rw [heq]
    exact extends_store

lemma extends_appendAll (writes : List (JournalName × List (String × Value))) :
    Extends s (s.appendAll cfg o now writes) := by
  induction writes generalizing s with
  | nil => exact Extends.refl s
  | cons write writes ih => exact (extends_append write.2).trans ih

lemma extends_step (x : LogStep) : Extends s (s.step cfg o x) := by
  cases hx : logTime x with
  | some now =>
    obtain ⟨writes, -, heq⟩ := step_of_logTime cfg o s hx
    rw [heq]
    exact extends_appendAll writes
  | none =>
    cases x with
    | update | integrity => cases hx
    | delete j limit limitEntry =>
      show Extends s (s.initializeJournal o j limit limitEntry).1
      obtain heq | ⟨old, -, -, heq⟩ := initializeJournal_cases o s j limit limitEntry
      · rw [heq]
        exact Extends.refl s
      · rw [heq, ← append_nil s.appended]
        exact extends_store
    | write w domain item v =>
      rw [step]
      split
      · exact ⟨prefix_rfl, fun _ h => h⟩
      · exact Extends.refl s

lemma extends_run (steps : List LogStep) : Extends s (s.run cfg o steps) := by
  induction steps generalizing s with
  | nil => exact Extends.refl s
  | cons x steps ih => exact (extends_step x).trans ih

def LoggedBy (s : Logging) (t : SystemTime) : Prop := ∀ x ∈ s.appended, x.2.time ≤ t

/-- What holds along a run in which the clock does not go back. -/
structure Chronicle (cfg : Config) (s : Logging) : Prop where
  held : s.journals.All fun j entries => entries <:+ s.appendedTo j
  numbered : Numbered cfg.entrySeed s.inner.entryCounter (s.appended.map Prod.snd)
  few : s.inner.entryCounter < 2 ^ 32
  dated : (s.appended.map Prod.snd).Pairwise fun a b => a.time ≤ b.time
  onWire : ∀ x ∈ s.appended, OnWire x.2.time

lemma appendedTo_sublist (s : Logging) (j : JournalName) : (s.appendedTo j).Sublist (s.appended.map Prod.snd) :=
  filter_sublist.map _

section
variable (h : Chronicle cfg s)
include h

lemma Chronicle.nodup_ids (j : JournalName) : ((s.appendedTo j).map LogEntry.id).Nodup :=
  (h.numbered.nodup h.few).sublist ((s.appendedTo_sublist j).map _)

lemma Chronicle.dated_to (j : JournalName) :
    (s.appendedTo j).Pairwise fun a b => a.time ≤ b.time := h.dated.sublist (s.appendedTo_sublist j)

lemma Chronicle.onWire_to {e : LogEntry} (he : e ∈ s.appendedTo j) : OnWire e.time := by
  obtain ⟨x, hx, rfl⟩ := mem_map.mp he
  exact h.onWire x (mem_of_mem_filter hx)

lemma chronicle_append (hfew : s.inner.entryCounter + 1 < 2 ^ 32)
    (hnow : s.LoggedBy (toMillis now)) (hwire : OnWire (toMillis now)) (vars : List (String × Value)) :
    Chronicle cfg (s.append cfg o now j vars) ∧ (s.append cfg o now j vars).LoggedBy (toMillis now) ∧
      (s.append cfg o now j vars).inner.entryCounter ≤ s.inner.entryCounter + 1 := by
  obtain heq | ⟨old, entry, hold, hid, htime, heq⟩ := append_cases cfg o s j now vars
  · rw [heq]
    exact ⟨h, hnow, by omega⟩
  rw [heq]
  generalize hent : (old ++ [entry]).drop _ = entries
  obtain ⟨-, happ, -, hctr⟩ :=
    sync_rest j (s.store (s.inner.entryCounter + 1) j entries (s.appended ++ [(j, entry)]))
  have happ : (sync j (s.store (s.inner.entryCounter + 1) j entries (s.appended ++ [(j, entry)]))).appended =
      s.appended ++ [(j, entry)] := happ
  have hctr := hctr
  have hm {x : JournalName × LogEntry} (hx : x ∈ s.appended ++ [(j, entry)]) :
      x ∈ s.appended ∨ x.2.time = toMillis now := by
    rcases mem_append.mp hx with hx | hx
    · exact .inl hx
    · rw [mem_singleton.mp hx]
      exact .inr htime
  refine ⟨?_, ?_, Nat.le_of_eq hctr⟩
  · constructor
    case held =>
      apply held_store h.held
      · rw [← hent]
        exact suffix_append (h.held j old hold) _
      · intro j' hne
        rw [appendedTo_append, if_neg hne]
    case numbered =>
      rw [happ, hctr, map_append]
      exact h.numbered.append_one hid
    case few =>
      rw [hctr]
      exact hfew
    case dated =>
      rw [happ, map_append, pairwise_append]
      refine ⟨h.dated, pairwise_singleton _ _, ?_⟩
      intro a ha b hb
      obtain ⟨x, hx, rfl⟩ := mem_map.mp ha
      rw [map_singleton, mem_singleton] at hb
      rw [hb]
      exact htime ▸ hnow x hx
    case onWire =>
      rw [happ]
      intro x hx
      rcases hm hx with hx | hx
      · exact h.onWire x hx
      · rw [hx]
        exact hwire
  · unfold LoggedBy
    rw [happ]
    intro x hx
    rcases hm hx with hx | hx
    · exact hnow x hx
    · exact le_of_eq hx

lemma chronicle_appendAll {writes : List (JournalName × List (String × Value))}
    (hfew : s.inner.entryCounter + writes.length < 2 ^ 32) (hnow : s.LoggedBy (toMillis now))
    (hwire : OnWire (toMillis now)) : Chronicle cfg (s.appendAll cfg o now writes) := by
  induction writes generalizing s with
  | nil => exact h
  | cons write writes ih =>
    rw [length_cons] at hfew
    have hone : Chronicle cfg (s.append cfg o now write.1 write.2) ∧ _ :=
      chronicle_append h (by omega) hnow hwire write.2
    obtain ⟨hchronicle, hby, hcnt⟩ := hone
    have hleft : (s.append cfg o now write.1 write.2).inner.entryCounter + writes.length < 2 ^ 32 := by omega
    exact ih hchronicle hleft hby

lemma chronicle_delete (limit : Option SystemTime) (limitEntry : Option (List UInt8)) :
    Chronicle cfg (s.initializeJournal o j limit limitEntry).1 := by
  obtain heq | ⟨old, hold, -, heq⟩ := initializeJournal_cases o s j limit limitEntry
  · rw [heq]
    exact h
  rw [heq]
  generalize deleted limit limitEntry old = k
  obtain ⟨-, happ, -, hctr⟩ := sync_rest j (s.store s.inner.entryCounter j (old.drop k) s.appended)
  have happ := happ
  have hctr := hctr
  constructor
  case held =>
    apply held_store h.held
    · exact (drop_suffix _ _).trans (h.held j old hold)
    · exact fun _ _ => rfl
  case numbered =>
    rw [happ, hctr]
    exact h.numbered
  case few =>
    rw [hctr]
    exact h.few
  case dated =>
    rw [happ]
    exact h.dated
  case onWire =>
    rw [happ]
    exact h.onWire

lemma chronicle_write {w : WriteCtx} {domain item : String} {v : Value}
    (hlog : forLogs (s.inner.target domain item)) :
    Chronicle cfg { s with inner := (s.inner.writeOne cfg w domain item v).1 } := by
  have hcnt : (s.inner.writeOne cfg w domain item v).1.entryCounter = s.inner.entryCounter :=
    entryCounter_writeOne hlog
  exact { h with numbered := hcnt ▸ h.numbered, few := hcnt ▸ h.few }

end

lemma chronicle_new (opts : Options) (m : Model) : Chronicle cfg (Logging.new opts m) := by
  refine ⟨?_, ⟨[], rfl, List.Pairwise.nil, nofun⟩, Nat.two_pow_pos 32, List.Pairwise.nil, nofun⟩
  intro j entries hj
  rw [empty_journals _ Table.all_empty j entries hj]
  exact nil_suffix

/-- A step that logs does so at a time that is not before any so far and that a client can be told, and
fewer than 2^32 identifiers are issued. -/
def Dated (s : Logging) (x : LogStep) : Prop :=
  ∀ now, logTime x = some now → s.LoggedBy (toMillis now) ∧ OnWire (toMillis now) ∧
    s.inner.entryCounter + s.inner.lcbs.entries.length < 2 ^ 32

instance (s : Logging) (x : LogStep) : Decidable (s.Dated x) :=
  inferInstanceAs (Decidable (∀ now ∈ logTime x, (∀ e ∈ s.appended, e.2.time ≤ toMillis now) ∧
    OnWire (toMillis now) ∧ s.inner.entryCounter + s.inner.lcbs.entries.length < 2 ^ 32))

lemma chronicle_step {x : LogStep} (h : Chronicle cfg s) (hx : Dated s x) : Chronicle cfg (s.step cfg o x) := by
  cases hnow : logTime x with
  | some now =>
    obtain ⟨writes, hlen, heq⟩ := step_of_logTime cfg o s hnow
    obtain ⟨hby, hwire, hfew⟩ := hx now hnow
    rw [heq]
    exact chronicle_appendAll h (by omega) hby hwire
  | none =>
    cases x with
    | update | integrity => cases hnow
    | delete j limit limitEntry => exact chronicle_delete h limit limitEntry
    | write w domain item v =>
      rw [step]
      split
      · next hlog => exact chronicle_write h hlog
      · exact h

lemma chronicle_run {steps : List LogStep} (h : Chronicle cfg s) (hm : Runs.Admitted (step cfg o) Dated s steps) :
    Chronicle cfg (s.run cfg o steps) :=
  Runs.induction_admitted (Chronicle cfg) (fun _ _ ht hx => chronicle_step ht hx) h hm

end Logging
end Iec61850.Server
