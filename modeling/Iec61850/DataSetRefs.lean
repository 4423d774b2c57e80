import Iec61850.ReservationRuns
import Iec61850.HandlerWrites

/-! What the report and log control blocks of a server refer to. -/
namespace Iec61850
open Mms DataObject Model FirstMatch List Option

namespace Model

def dataSetAt (m : Model) (d l ds : String) : Option DataSet := (m.node d l).bind fun n => n.dataSet ds

def SameSets (m m' : Model) : Prop := ∀ d l ds, m'.dataSetAt d l ds = m.dataSetAt d l ds

variable {m m' m'' : Model}

lemma SameSets.refl : SameSets m m := fun _ _ _ => rfl

lemma SameSets.trans (h : SameSets m m') (h' : SameSets m' m'') : SameSets m m'' := by
  intro d l ds
  rw [h' d l ds, h d l ds]

lemma sameSets_objectMut (d l o : String) (f : DataObject → DataObject) :
    SameSets m (m.objectMut d l o f) := dataSet_objectMut m

lemma sameSets_setAttribute (r : ObjectReference) (fc : Fc) (v : Value) : SameSets m (m.setAttribute r fc v) := by
  unfold setAttribute
  split
  · exact sameSets_objectMut _ _ _ _
  · exact .refl

end Model

namespace Server

variable {m m' : Model}

lemma resolveDataSet_of_sameSets (h : m.SameSets m') (r : String) :
    resolveDataSet m' r = resolveDataSet m r := resolveDataSet_congr h

def LcbState.path (lcb : LcbState) : String × String × String := (lcb.domain, lcb.ln, lcb.name)

def logRefAttrs : List String := ["LogEna", "DatSet"]

lemma lcbAttr_of_path {lcb lcb' : LcbState} (h : lcb'.path = lcb.path) (name : String) :
    lcbAttr m lcb' name = lcbAttr m lcb name := by
  obtain ⟨hd, hl, hn⟩ := triple_inj h
  rw [lcbAttr, lcbAttr, hd, hl, hn]

variable {rs : RcbState}

lemma ModelFrame.object_apart {names : List String} {d l o : String}
    (h : ModelFrame names rs m m') (hne : (d, l, o) ≠ rs.path) : m'.object d l o = m.object d l o :=
  h.other { domain := d, item := "", lnName := l, objectName := o, buffered := false, maxBuffer := 0 } hne

variable {o : DataObject}

variable {f : DataAttribute → DataAttribute}

section
variable (h : RcbObject rs o) {fc : Fc}
include h

lemma RcbObject.onAttribute_eq (test : Fc → Bool) (first : String) (hfc : test rs.fc = false) :
    o.onAttribute (fun a => a.name == first && test a.fc) f = o := by
  have hno : ∀ a ∈ o.attributes, (a.name == first && test a.fc) = false := by
    intro a ha
    rw [(h.attributes a ha).1, hfc, Bool.and_false]
  cases o
  exact congrArg (fun as => { name := _, objects := _, attributes := as, cdc := _ : DataObject })
    (update_of_none hno)

lemma RcbObject.child_eq_none (first : String) : o.child first = none := by
  rw [child, h.objects, find?_nil]

lemma RcbObject.writeBelowMut_eq (hfc : fc ≠ rs.fc) (path : List String) : Access.writeBelowMut fc f path o = o := by
  have htest : (rs.fc == fc) = false := beq_eq_false_iff_ne.mpr (Ne.symm hfc)
  match path with
  | [] => rfl
  | [first] =>
    exact h.onAttribute_eq (fun c => c == fc) first htest
  | first :: second :: rest =>
    rw [writeBelowMut_of_no_child (h.child_eq_none first)]
    exact h.onAttribute_eq (fun c => c == fc) first htest

lemma RcbObject.attributeMut_eq (hx : fc.Exact) (hfc : fc ≠ rs.fc)
    (path : List String) : attributeMut fc f path o = o := by
  have htest : fc.matchesFc rs.fc = false := by
    rw [Bool.eq_false_iff, ne_eq, hx.matches_iff]
    exact hfc
  cases path with
  | nil => rfl
  | cons first rest =>
    rw [attributeMut_of_no_child (h.child_eq_none first)]
    exact h.onAttribute_eq fc.matchesFc first htest

end

namespace Inner

/-- What the blocks of a server refer to in one model they refer to in the other. -/
structure RefsKept (s : Inner) (m m' : Model) : Prop where
  shaped : ∀ b ∈ s.blocks, Shaped m b.rs → Shaped m' b.rs
  reports : ∀ b ∈ s.blocks, attrValue m' b.rs "DatSet" = attrValue m b.rs "DatSet"
  logs : s.lcbs.All fun _ lcb => ∀ n ∈ logRefAttrs, lcbAttr m' lcb n = lcbAttr m lcb n

variable {s : Inner} {m'' : Model}

lemma RefsKept.refl : RefsKept s m m :=
  ⟨fun _ _ h => h, fun _ _ => rfl, fun _ _ _ _ _ => rfl⟩

lemma RefsKept.trans (h : RefsKept s m m') (h' : RefsKept s m' m'') : RefsKept s m m'' := by
  refine ⟨fun b hb hs => h'.shaped b hb (h.shaped b hb hs), ?_, ?_⟩
  · intro b hb
    rw [h'.reports b hb, h.reports b hb]
  · intro key lcb hlcb n hn
    rw [h'.logs key lcb hlcb n hn, h.logs key lcb hlcb n hn]

lemma refsKept_of_objects (hb : ∀ b ∈ s.blocks, m'.object b.rs.domain b.rs.lnName b.rs.objectName =
      m.object b.rs.domain b.rs.lnName b.rs.objectName)
    (hl : s.lcbs.All fun _ lcb => m'.object lcb.domain lcb.ln lcb.name = m.object lcb.domain lcb.ln lcb.name) :
    RefsKept s m m' := by
  refine ⟨?_, ?_, ?_⟩
  · rintro b hm ⟨o, ho, hobj⟩
    exact ⟨o, (hb b hm).trans ho, hobj⟩
  · intro b hm
    rw [attrValue, attrValue, hb b hm]
  · intro key lcb hlcb n _
    rw [lcbAttr, lcbAttr, hl key lcb hlcb]

def fcValue (fc : Fc) (n : String) (o : DataObject) : Option Value :=
  (o.attributes.find? fun a => a.name == n && a.fc == fc).bind DataAttribute.value

def logValue (n : String) (o : DataObject) : Option Value :=
  (o.attributes.find? fun a => a.name == n && a.fc == .lg).bind DataAttribute.value

variable {d l o : String}

lemma refsKept_objectMut {f : DataObject → DataObject} (hnm : ∀ x, (f x).name = x.name)
    (hshp : ∀ b ∈ s.blocks, b.rs.path = (d, l, o) → ∀ x, RcbObject b.rs x → RcbObject b.rs (f x))
    (hreport : ∀ b ∈ s.blocks, b.rs.path = (d, l, o) → ∀ x, m.object d l o = some x →
      ((f x).attr "DatSet").bind DataAttribute.value = (x.attr "DatSet").bind DataAttribute.value)
    (hlog : s.lcbs.All fun _ lcb => lcb.path = (d, l, o) → ∀ x, m.object d l o = some x →
      ∀ n ∈ logRefAttrs, logValue n (f x) = logValue n x) : RefsKept s m (m.objectMut d l o f) := by
  have hsm : (m.objectMut d l o f).object d l o = (m.object d l o).map f := object_objectMut_same m hnm
  have hoth : ∀ d' l' o', (d', l', o') ≠ (d, l, o) →
      (m.objectMut d l o f).object d' l' o' = m.object d' l' o' :=
    fun d' l' o' hne => object_objectMut_other m hnm hne
  refine ⟨?_, ?_, ?_⟩
  · rintro b hb ⟨x, hx, hobj⟩
    by_cases heq : b.rs.path = (d, l, o)
    · obtain ⟨rfl, rfl, rfl⟩ := triple_inj heq
      exact ⟨f x, by rw [hsm, hx, map_some], hshp b hb rfl x hobj⟩
    · exact ⟨x, (hoth _ _ _ heq).trans hx, hobj⟩
  · intro b hb
    by_cases heq : b.rs.path = (d, l, o)
    · obtain ⟨rfl, rfl, rfl⟩ := triple_inj heq
      rw [attrValue, attrValue, hsm]
      cases hx : m.object b.rs.domain b.rs.lnName b.rs.objectName with
      | none => rfl
      | some x => exact hreport b hb rfl x hx
    · rw [attrValue, attrValue, hoth _ _ _ heq]
  intro key lcb hlcb n hn
  by_cases heq : lcb.path = (d, l, o)
  · obtain ⟨rfl, rfl, rfl⟩ := triple_inj heq
    rw [lcbAttr, lcbAttr, hsm]
    cases hx : m.object lcb.domain lcb.ln lcb.name with
    | none => rfl
    | some x => exact hlog key lcb hlcb rfl x hx n hn
  · rw [lcbAttr, lcbAttr, hoth _ _ _ heq]

lemma refsKept_onAttribute {name : String} (test : DataAttribute → Bool) (v : Value) (hn : name ∉ logRefAttrs) :
    RefsKept s m (m.objectMut d l o fun x =>
      x.onAttribute (fun a => a.name == name && test a) fun a => { a with value := some v }) := by
  have hmiss : ∀ n ∈ logRefAttrs, ∀ a : DataAttribute, (a.name == name && test a) →
      (a.name == n) = false := by
    intro n hm a ha
    rw [eq_of_beq ((Bool.and_eq_true _ _).mp ha).1, beq_eq_false_iff_ne]
    rintro rfl
    exact hn hm
  refine refsKept_objectMut ?_ ?_ ?_ ?_
  · intro x
    rfl
  · intro b _ _ x hx
    exact hx.onAttribute _ v
  · intro b _ _ x _
    apply congrArg (bind · DataAttribute.value)
    apply find_update_other
    intro a ha
    have hno := hmiss "DatSet" (by decide) a ha
    exact ⟨hno, hno⟩
  intro key lcb _ _ x _ n hm
  apply congrArg (bind · DataAttribute.value)
  apply find_update_other
  intro a ha
  have hno : (a.name == n && a.fc == .lg) = false := by rw [hmiss n hm a ha, Bool.false_and]
  exact ⟨hno, hno⟩

/-- Each block has an object of its own, a log control block is known by the key of its place, and no block is
where writes are recorded. -/
structure Hosted (s : Inner) : Prop where
  sited : Sited s.toState
  keys : s.lcbs.All LogAt
  plain : s.lcbs.All fun _ lcb =>
    '\x00' ∉ lcb.domain.toList ∧ '\x00' ∉ (lcb.ln ++ "$LG$" ++ lcb.name).toList
  apart : s.lcbs.All fun _ lcb => ∀ b ∈ s.blocks, lcb.path ≠ b.rs.path
  untracked : ∀ o, s.tracker.Has o → (∀ b ∈ s.blocks, b.rs.path ≠ (o.ld, o.ln, o.object)) ∧
    s.lcbs.All fun _ lcb => lcb.path ≠ (o.ld, o.ln, o.object)

variable {names : List String} {f : RcbState → Work → Work} {b b' : Block}

lemma Hosted.same_or_apart (hs : s.Hosted) (hb : b ∈ s.blocks) (hb' : b' ∈ s.blocks) :
    b'.rs = b.rs ∨ b'.rs.path ≠ b.rs.path := by
  by_cases heq : b'.rs = b.rs
  · exact .inl heq
  · right
    exact hs.sited.placed.apart.forall (mem_map_of_mem hb') (mem_map_of_mem hb) heq

lemma shaped_frame (hs : s.Hosted) (hb : b ∈ s.blocks) (hb' : b' ∈ s.blocks)
    (h : ModelFrame names b.rs m m') (hshp : Shaped m b'.rs) : Shaped m' b'.rs := by
  rcases hs.same_or_apart hb hb' with heq | hne
  · rw [heq] at hshp ⊢
    exact h.shaped hshp
  · obtain ⟨o, ho, hobj⟩ := hshp
    exact ⟨o, (h.other b'.rs hne).trans ho, hobj⟩

lemma refsKept_frame (hs : s.Hosted) (hb : b ∈ s.blocks)
    (h : ModelFrame names b.rs m m') (hn : "DatSet" ∉ names) : RefsKept s m m' := by
  refine ⟨fun b' hb' hshp => shaped_frame hs hb hb' h hshp, ?_, ?_⟩
  · intro b' _
    exact h.attrValue_any hn b'.rs
  · intro key lcb hlcb n _
    rw [lcbAttr, lcbAttr, h.object_apart (hs.apart key lcb hlcb b hb)]

lemma runBlocks_relates {Q : Engine → Engine → Prop} (hrefl : ∀ g, Q g g)
    (htrans : ∀ g g' g'', Q g g' → Q g' g'' → Q g g'') (bs : List Block)
    (hf : ∀ b ∈ bs, ∀ g, Q g (f b.rs (b.work g)).toEngine) (g : Engine) : Q g (runBlocks f bs g).1 := by
  induction bs generalizing g with
  | nil => exact hrefl g
  | cons b rest ih =>
    have hfst := hf b mem_cons_self g
    exact htrans _ _ _ hfst (ih (fun b' hb' => hf b' (mem_cons_of_mem _ hb')) _)

lemma refsKept_onBlocks (hs : s.Hosted) (hf : ∀ rs w, Frame servedAttrs rs w (f rs w)) (g : Engine) :
    RefsKept s g.model (runBlocks f s.blocks g).1.model ∧ g.model.SameSets (runBlocks f s.blocks g).1.model := by
  refine runBlocks_relates (Q := fun g g' => RefsKept s g.model g'.model ∧ g.model.SameSets g'.model)
    (fun g => ⟨.refl, .refl⟩) ?_ s.blocks ?_ g
  · intro g g' g'' h h'
    exact ⟨h.1.trans h'.1, h.2.trans h'.2⟩
  intro b hb g
  have hfr := (hf b.rs (b.work g)).model
  exact ⟨refsKept_frame hs hb hfr (by decide), hfr.dataSet⟩

lemma enabled_onBlocks {st : State} (hf : ∀ rs w, (f rs w).st.enabled → w.st.enabled)
    (hb' : b' ∈ (st.onBlocks f).blocks) : ∃ b ∈ st.blocks, b.rs = b'.rs ∧ (b'.st.enabled → b.st.enabled) := by
  have hall := runBlocks_forall (f := f)
    (fun _ b' => ∃ b ∈ st.blocks, b.rs = b'.rs ∧ (b'.st.enabled → b.st.enabled))
    (fun _ b' => ∃ b ∈ st.blocks, b.rs = b'.rs ∧ (b'.st.enabled → b.st.enabled))
    ?_ (fun _ _ _ _ h => h) (fun _ _ _ _ h => h) st.blocks st.toEngine (anyTwo_pairwise _)
    fun b hb => ⟨b, hb, rfl, id⟩
  · exact hall b' hb'
  · rintro b1 g ⟨b, hb, hrs, hen⟩
    exact ⟨b, hb, hrs, fun hon => hen (hf _ _ hon)⟩

variable {w : WriteCtx} {domain item attr key : String} {v : Value} {fc fc' : Fc} {path : List String}

lemma refsKept_track (hs : s.Hosted) (controlBlock : Bool) (res : Except DataAccessError Unit) :
    RefsKept s s.model (s.track w domain item v controlBlock res).model := by
  apply refsKept_of_objects
  · intro b hb
    apply object_track_of_untracked
    intro o ho
    exact (hs.untracked o ho).1 b hb
  intro key lcb hlcb
  apply object_track_of_untracked
  intro o ho
  exact (hs.untracked o ho).2 key lcb hlcb

lemma sameSets_track (controlBlock : Bool) (res : Except DataAccessError Unit) :
    s.model.SameSets (s.track w domain item v controlBlock res).model := by
  obtain ⟨m, changes, hm, heq⟩ := onlyTracked_track controlBlock res
  rw [heq]
  rcases hm with rfl | ⟨o, -, x, rfl⟩
  · exact .refl
  · exact sameSets_objectMut _ _ _ _

lemma sameSets_putItem : m.SameSets (putItem m domain item v) := by
  unfold putItem
  split
  · exact .refl
  · exact sameSets_objectMut _ _ _ _

lemma fcValue_writeBelowMut {n : String} (hne : fc' = fc → path ≠ [n]) (o : DataObject) :
    fcValue fc n (Access.writeBelowMut fc' (fun da => { da with value := some v }) path o) = fcValue fc n o := by
  have hoth : ∀ first : String, (n = first → fc' ≠ fc) → n = first →
      ∀ c, (c == fc') → (c == fc) = false := by
    intro first hfc heq c hc
    rw [eq_of_beq hc, beq_eq_false_iff_ne]
    exact hfc heq
  match path with
  | [] => rfl
  | [first] =>
    rw [writeBelowMut_last, fcValue, find_onAttribute_other (keepsPlace_put v) (fun c => c == fc') fun c => c == fc]
    · rfl
    · exact hoth first fun heq hfc => hne hfc (by rw [heq])
  | first :: second :: rest =>
    cases hch : o.child first with
    | some sub =>
      rw [writeBelowMut_of_child hch]
      rfl
    | none =>
      rw [writeBelowMut_of_no_child hch]
      by_cases hown : n = first ∧ fc' = fc
      · -- What changes is below the attribute, and its own value stays.
        obtain ⟨rfl, rfl⟩ := hown
        rw [fcValue, find_onAttribute_same (keepsPlace_put v) fun c => c == fc', fcValue]
        cases o.attributes.find? fun a => a.name == n && a.fc == fc' with
        | none => rfl
        | some a => rfl
      rw [fcValue, find_onAttribute_other (keepsPlace_put v) (fun c => c == fc') fun c => c == fc]
      · rfl
      · exact hoth first fun heq hfc => hown ⟨heq, hfc⟩

lemma fcValue_attributeMut (hx : fc'.Exact) (hfc : fc' ≠ fc) (path : List String) (n : String) (o : DataObject) :
    fcValue fc n (attributeMut fc' (fun da => { da with value := some v }) path o) = fcValue fc n o := by
  rcases path with _ | ⟨first, rest⟩
  · rfl
  cases hch : o.child first with
  | some sub =>
    rw [attributeMut_of_child hch]
    rfl
  | none =>
    rw [attributeMut_of_no_child hch, fcValue,
      find_onAttribute_other (keepsPlace_put v) fc'.matchesFc fun c => c == fc]
    · rfl
    intro _ c hc
    rw [← (hx.matches_iff c).mp hc, beq_eq_false_iff_ne]
    exact hfc

lemma rcbObject_at {x : DataObject} (hshp : Shaped m b.rs)
    (heq : b.rs.path = (d, l, o)) (hx : m.object d l o = some x) : RcbObject b.rs x := by
  obtain ⟨x', hx', hobj⟩ := hshp
  obtain ⟨rfl, rfl, rfl⟩ := triple_inj heq
  rw [← mem_unique hx' hx]
  exact hobj

variable {object : String} {r : ObjectReference} {mgr : SettingGroupManager} {now : Value}

lemma refsKept_putItem (hshp : ∀ b ∈ s.blocks, Shaped m b.rs)
    (hpath : Access.writePath item = some (object, fc, path))
    (hb : ∀ b ∈ s.blocks, writeSite domain item = some b.rs.path → fc ≠ b.rs.fc)
    (hl : s.lcbs.All fun _ lcb => writeSite domain item = some lcb.path →
      ∀ n ∈ logRefAttrs, fc = .lg → path ≠ [n]) : RefsKept s m (putItem m domain item v) := by
  have hsite := writeSite_of_path domain hpath
  have hfc : ∀ b ∈ s.blocks, b.rs.path = (domain, (Text.split '$' item).headD "", object) →
      fc ≠ b.rs.fc := by
    intro b hm heq
    exact hb b hm (hsite.trans (by rw [heq]))
  rw [putItem, hpath]
  refine refsKept_objectMut (writeBelowMut_name path) ?_ ?_ ?_
  · intro b hm heq x hx
    rw [hx.writeBelowMut_eq (hfc b hm heq) path]
    exact hx
  · intro b hm heq x hx
    rw [(rcbObject_at (hshp b hm) heq hx).writeBelowMut_eq (hfc b hm heq) path]
  · intro key lcb hlcb heq x _ n hn
    exact fcValue_writeBelowMut (hl key lcb hlcb (hsite.trans (by rw [heq])) n hn) x

lemma refsKept_setAttribute (hshp : ∀ b ∈ s.blocks, Shaped m b.rs)
    (hx : fc.Exact) (hb : ∀ b ∈ s.blocks, fc ≠ b.rs.fc) (hl : fc ≠ .lg) : RefsKept s m (m.setAttribute r fc v) := by
  unfold setAttribute
  split
  next ln object path _ =>
    refine refsKept_objectMut (attributeMut_name path) ?_ ?_ ?_
    · intro b hm _ x hobj
      rw [hobj.attributeMut_eq hx (hb b hm) path]
      exact hobj
    · intro b hm heq x hobj
      rw [(rcbObject_at (hshp b hm) heq hobj).attributeMut_eq hx (hb b hm) path]
    · intro key lcb _ _ x _ n _
      exact fcValue_attributeMut hx hl path n x
  · exact .refl

/-- Nothing of what the blocks refer to changes, while they have the form of blocks. -/
def Quiet (s : Inner) (m m' : Model) : Prop :=
  (∀ b ∈ s.blocks, Shaped m b.rs) → RefsKept s m m' ∧ m.SameSets m'

lemma Quiet.refl : Quiet s m m := fun _ => ⟨.refl, .refl⟩

lemma Quiet.trans (h : Quiet s m m') (h' : Quiet s m' m'') : Quiet s m m'' := by
  intro hshp
  obtain ⟨hrefs, hsets⟩ := h hshp
  obtain ⟨hrefs', hsets'⟩ := h' fun b hb => hrefs.shaped b hb (hshp b hb)
  exact ⟨hrefs.trans hrefs', hsets.trans hsets'⟩

lemma quiet_setAttribute (hfc : fc ∈ [Fc.st, Fc.sg, Fc.se]) : Quiet s m (m.setAttribute r fc v) := by
  intro hshp
  have hx : fc.Exact ∧ fc ≠ .lg ∧ ∀ buffered : Bool, fc ≠ if buffered then .br else .rp := by
    simp only [mem_cons, not_mem_nil, or_false] at hfc
    rcases hfc with rfl | rfl | rfl <;> exact ⟨⟨by decide, by decide⟩, by decide, by decide⟩
  exact ⟨refsKept_setAttribute hshp hx.1 (fun b _ => hx.2.2 b.rs.buffered) hx.2.1, sameSets_setAttribute r fc v⟩

lemma quiet_putItem (hpath : Access.writePath item = some (object, fc, path)) (hfc : fc ∉ [Fc.rp, Fc.br, Fc.lg]) :
    Quiet s m (putItem m domain item v) := by
  intro hshp
  simp only [mem_cons, not_mem_nil, or_false, not_or] at hfc
  refine ⟨refsKept_putItem hshp hpath ?_ ?_, sameSets_putItem⟩
  · intro b _ _
    unfold RcbState.fc
    split
    · exact hfc.2.1
    · exact hfc.1
  · intro key lcb _ _ n _ heq
    exact absurd heq hfc.2.2

lemma quiet_setSgcb (hat : attr ∉ logRefAttrs) : Quiet s m (mgr.setSgcb m attr v) := by
  intro _
  refine ⟨?_, sameSets_objectMut _ _ _ _⟩
  have hput : mgr.setSgcb m attr v = m.objectMut mgr.domain "LLN0" sgcbName fun x =>
      x.onAttribute (fun a => a.name == attr && (fun _ => true) a) fun a => { a with value := some v } := by
    simp only [Bool.and_true]
    rfl
  rw [hput]
  exact refsKept_onAttribute (fun _ => true) v hat

/-- What the work of a setting-group control block leaves of the model. -/
theorem onSgcbWrite_rule {Q : Model → Prop} (h : Q m)
    (hset : ∀ m name v, name ∈ ["ActSG", "LActTm", "EditSG", "CnfEdit"] → Q m → Q (mgr.setSgcb m name v))
    (hwrite : ∀ m r fc v, fc ∈ [Fc.st, Fc.sg, Fc.se] → Q m → Q (m.setAttribute r fc v)) :
    Q (mgr.onSgcbWrite now m attr v).2 := by
  have hall {m : Model} {fc : Fc} (hfc : fc ∈ [Fc.st, Fc.sg, Fc.se]) (updates : List (ObjectReference × Value))
      (h : Q m) : Q (SettingGroupManager.writeAttrs fc m updates) :=
    foldlRecOn updates _ h fun m hm u _ => hwrite m u.1 fc u.2 hfc hm
  dsimp only [SettingGroupManager.onSgcbWrite]
  split
  · split
    · exact h
    · exact hall (by decide) _ (hset _ _ _ (by decide) (hset _ _ _ (by decide) h))
  split
  · split
    · exact hall (by decide) _ (hset _ _ _ (by decide) h)
    · exact hset _ _ _ (by decide) h
  split
  · split
    · exact h
    · exact hset _ _ _ (by decide) (hset _ _ _ (by decide) (hall (by decide) _ h))
  · exact h

lemma quiet_onSgcbWrite : Quiet s m (mgr.onSgcbWrite now m attr v).2 :=
  onSgcbWrite_rule .refl
    (fun _ n _ hn h => h.trans (quiet_setSgcb ((by decide : ∀ n ∈ _, n ∉ logRefAttrs) n hn)))
    fun _ _ _ _ hfc h => h.trans (quiet_setAttribute hfc)

lemma quiet_releaseSvcbs (conn : ConnId) (blocks : Table String SvcbState) :
    Quiet s m (releaseSvcbs conn m blocks).1 := by
  have hflag (m : Model) (st : SvcbState) (name : String) (on : Bool) (hn : name ∉ logRefAttrs) :
      Quiet s m (st.setFlag m name on) := by
    intro _
    exact ⟨refsKept_onAttribute (fun a => a.fc == st.fc) (.boolean on) hn, sameSets_objectMut _ _ _ _⟩
  refine foldlRecOn
    (motive := fun (done : Model × Table String SvcbState) => Quiet s m done.1) (inKeyOrder blocks) _ .refl ?_
  intro done hdone e _
  unfold SvcbState.releaseConn
  split
  · exact hdone
  · exact hdone.trans ((hflag _ _ "Resv" false (by decide)).trans (hflag _ _ "SvEna" false (by decide)))

end Inner
end Server
end Iec61850
