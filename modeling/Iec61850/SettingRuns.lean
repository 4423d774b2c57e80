import Mathlib.Data.List.Dedup
import Iec61850.HandlerWrites

/-! What a model shows of the setting groups of a device, over whole runs. -/
namespace Iec61850.Server
open Mms Setting Model List Option UInt8 SettingGroupManager ObjectReference Text

def SgcbShows (m : Model) (domain name : String) (v : Value) : Prop :=
  ∃ o a, m.object domain "LLN0" sgcbName = some o ∧ o.attr name = some a ∧ a.fc = .sp ∧ a.value = some v

variable {m : Model} {domain name d : String} {v u : Value}

lemma SgcbShows.objectMut {l o : String} {g : DataObject → DataObject} (h : SgcbShows m domain name v)
    (hg : ∀ x, (g x).name = x.name)
    (ha : ∀ x a, d = domain → x.attr name = some a → a.fc = .sp → (g x).attr name = some a) :
    SgcbShows (m.objectMut d l o g) domain name v := by
  obtain ⟨x, a, hx, hat, hfc, hv⟩ := h
  by_cases hsite : (domain, "LLN0", sgcbName) = (d, l, o)
  · obtain ⟨rfl, rfl, rfl⟩ := triple_inj hsite
    refine ⟨g x, a, ?_, ha x a rfl hat hfc, hfc, hv⟩
    rw [object_objectMut_same m hg, hx, map_some]
  · exact ⟨x, a, by rw [object_objectMut_other m hg hsite, hx], hat, hfc, hv⟩

lemma SgcbShows.setAttribute {r : ObjectReference} {fc : Fc} (h : SgcbShows m domain name v)
    (hx : fc.Exact) (hfc : fc ≠ .sp) : SgcbShows (m.setAttribute r fc u) domain name v := by
  unfold Model.setAttribute
  split
  next l o rest hpath =>
    apply h.objectMut (DataObject.attributeMut_name rest)
    intro x a _ hat hsp
    exact DataObject.attr_attributeMut (keepsPlace_put u) hx hat (hsp ▸ hfc) rest
  · exact h

lemma setObjectAttr_name (name : String) (u : Value) (o : DataObject) : (setObjectAttr name u o).name = o.name := rfl

lemma SgcbShows.setObjectAttr_same (h : SgcbShows m domain name v) :
    SgcbShows (m.objectMut domain "LLN0" sgcbName (setObjectAttr name u)) domain name u := by
  obtain ⟨o, a, ho, hat, hfc, -⟩ := h
  refine ⟨setObjectAttr name u o, { a with value := some u }, ?_, ?_, hfc, rfl⟩
  · rw [object_objectMut_same m (setObjectAttr_name name u), ho, map_some]
  · rw [attr_setObjectAttr_same, hat, map_some]

lemma SgcbShows.setObjectAttr_other {other : String} (h : SgcbShows m domain name v)
    (hne : d = domain → name ≠ other) :
    SgcbShows (m.objectMut d "LLN0" sgcbName (setObjectAttr other u)) domain name v := by
  apply h.objectMut (setObjectAttr_name other u)
  intro x a hd hat _
  rw [attr_setObjectAttr_other (hne hd), hat]

variable {fc fc' : Fc} {r : ObjectReference} {updates : List (ObjectReference × Value)}

lemma SgcbShows.writeAttrs (h : SgcbShows m domain name v) (hx : fc.Exact)
    (hfc : fc ≠ .sp) : SgcbShows (SettingGroupManager.writeAttrs fc m updates) domain name v := by
  apply foldlRecOn (motive := fun m => SgcbShows m domain name v) _ _ h
  intro m hm u _
  exact hm.setAttribute hx hfc

lemma view_writeAttrs_other (hx : fc.Exact) (hx' : fc'.Exact)
    (hne : fc = fc' → ∀ u ∈ updates, u.1.address ≠ r.address) :
    (SettingGroupManager.writeAttrs fc m updates).view r fc' = m.view r fc' := by
  induction updates generalizing m with
  | nil => rfl
  | cons u rest ih =>
    have hrs : fc = fc' → ∀ u' ∈ rest, u'.1.address ≠ r.address :=
      fun h u' hu' => hne h u' (mem_cons_of_mem _ hu')
    calc (writeAttrs fc m (u :: rest)).view r fc'
        = (writeAttrs fc (m.setAttribute u.1 fc u.2) rest).view r fc' := rfl
      _ = (m.setAttribute u.1 fc u.2).view r fc' := ih hrs
      _ = m.view r fc' := view_setAttribute_other hx hx' fun h => hne h u mem_cons_self

lemma view_writeAttrs_same (hx : fc.Exact)
    (hn : (updates.map fun u => u.1.address).Nodup) (hu : (r, v) ∈ updates) (hr : m.view r fc ≠ none) :
    (SettingGroupManager.writeAttrs fc m updates).view r fc = some v := by
  induction updates generalizing m with
  | nil => cases hu
  | cons u rest ih =>
    obtain ⟨hhead, htail⟩ := nodup_cons.mp hn
    rcases mem_cons.mp hu with rfl | hu
    · -- The assignments after this one are to other attributes.
      have hrs : ∀ u ∈ rest, u.1.address ≠ r.address := by
        intro u hu heq
        exact hhead (mem_map.mpr ⟨u, hu, heq⟩)
      calc (writeAttrs fc m ((r, v) :: rest)).view r fc
          = (writeAttrs fc (m.setAttribute r fc v) rest).view r fc := rfl
        _ = (m.setAttribute r fc v).view r fc := view_writeAttrs_other hx hx fun _ => hrs
        _ = some v := view_setAttribute_same hr
    have hne : u.1.address ≠ r.address := by
      intro heq
      exact hhead (mem_map.mpr ⟨(r, v), hu, heq.symm⟩)
    apply ih htail hu
    rw [view_setAttribute_other hx hx fun _ => hne]
    exact hr

/-- A reference that leads through no setting-group control block. -/
def OffBlock (r : ObjectReference) : Prop := ∀ rest, r.path ≠ "LLN0" :: sgcbName :: rest

namespace Setting
variable {st : Setting} {e g : UInt8} {u : ObjectReference × Value}

lemma edited_eq_some (h : st.edited m = some u) : u.1 = st.sg ∧ ∃ r, st.se = some r ∧ m.view r .se = some u.2 := by
  obtain ⟨v, hv, rfl⟩ := map_eq_some_iff.mp h
  obtain ⟨r, hr, hview⟩ := bind_eq_some_iff.mp hv
  exact ⟨rfl, r, hr, hview⟩

lemma edited_of_view (hr : st.se = some r) (hv : m.view r .se = some v) : st.edited m = some (st.sg, v) := by
  unfold view at hv
  simp [edited, hr, hv]

@[simp] lemma confirm_sg : (st.confirm m e).sg = st.sg := by
  unfold confirm
  split <;> rfl

@[simp] lemma confirm_se : (st.confirm m e).se = st.se := by
  unfold confirm
  split <;> rfl

@[simp] lemma confirm_length : (st.confirm m e).groups.length = st.groups.length := by
  unfold confirm
  split
  · exact length_set
  · rfl

lemma value_confirm_same (h : st.edited m = some u)
    (he : 1 ≤ e ∧ e.toNat ≤ st.groups.length) : (st.confirm m e).value e = u.2 := by
  have hone : 1 ≤ e.toNat := le_iff_toNat_le.mp he.1
  have hlt : e.toNat - 1 < st.groups.length := by omega
  simp [confirm, h, value, hlt]

lemma value_confirm_other (he : 1 ≤ e) (hg : 1 ≤ g) (hne : g ≠ e) : (st.confirm m e).value g = st.value g := by
  have he1 : 1 ≤ e.toNat := UInt8.le_iff_toNat_le.mp he
  have hg1 : 1 ≤ g.toNat := UInt8.le_iff_toNat_le.mp hg
  have hnat : g.toNat ≠ e.toNat := fun h => hne (UInt8.toNat_inj.mp h)
  have hidx : e.toNat - 1 ≠ g.toNat - 1 := by omega
  unfold confirm
  split
  · simp [value, getElem?_set_ne hidx]
  · rfl

lemma confirm_of_none (h : st.edited m = none) : st.confirm m e = st := by simp [confirm, h]

end Setting

namespace SettingGroupManager

/-- The groups of a device: the active group is one of them, every setting has a value in each, its edited
attribute goes by the name of the active one, and no two settings are the same attribute. -/
structure Sound (mgr : SettingGroupManager) : Prop where
  active : 1 ≤ mgr.actSg ∧ mgr.actSg ≤ mgr.numOfSg
  sized : ∀ st ∈ mgr.settings, st.groups.length = mgr.numOfSg.toNat
  paired : ∀ st ∈ mgr.settings, ∀ r, st.se = some r → r = st.sg
  distinct : (mgr.settings.map fun st => st.sg.address).Nodup

variable {mgr : SettingGroupManager}

lemma Sound.map_settings (h : mgr.Sound) (f : Setting → Setting)
    (hf : ∀ st, (f st).sg = st.sg ∧ (f st).se = st.se ∧ (f st).groups.length = st.groups.length) :
    Sound { mgr with settings := mgr.settings.map f } := by
  refine ⟨h.active, ?_, ?_, ?_⟩
  · intro st' hmem'
    obtain ⟨st, hm, rfl⟩ := List.mem_map.mp hmem'
    rw [(hf st).2.2]
    exact h.sized st hm
  · intro st' hmem' r hr
    obtain ⟨st, hm, rfl⟩ := List.mem_map.mp hmem'
    rw [(hf st).2.1] at hr
    rw [(hf st).1]
    exact h.paired st hm r hr
  · have hsg : (fun st => st.sg.address) ∘ f = fun st => st.sg.address :=
      funext fun st => congrArg address (hf st).1
    rw [List.map_map, hsg]
    exact h.distinct

/-- The model shows the runtime state: every setting its stored value in the active group, and the
control block the numbers of the groups. -/
structure Shown (mgr : SettingGroupManager) (m : Model) : Prop where
  settings : ∀ st ∈ mgr.settings, m.view st.sg .sg = some (st.value mgr.actSg)
  numOfSg : SgcbShows m mgr.domain "NumOfSG" (.uint8 mgr.numOfSg)
  actSg : SgcbShows m mgr.domain "ActSG" (.uint8 mgr.actSg)
  editSg : SgcbShows m mgr.domain "EditSG" (.uint8 mgr.editSg)

/-- From `m` to `m'` nothing changes but the control block of a device and the attributes that are
`written`. -/
structure Within (domain : String) (written : Fc → ObjectReference → Prop) (m m' : Model) : Prop where
  views : ∀ r fc, OffBlock r → fc.Exact → ¬ written fc r → m'.view r fc = m.view r fc
  blocks : ∀ d name v, d ≠ domain → SgcbShows m d name v → SgcbShows m' d name v

variable {m' m'' : Model} {attr : String} {written : Fc → ObjectReference → Prop}

namespace Within

lemma refl : Within domain written m m := ⟨fun _ _ _ _ _ => rfl, fun _ _ _ _ h => h⟩

lemma trans (h : Within domain written m m') (h' : Within domain written m' m'') : Within domain written m m'' := by
  constructor
  · intro r fc hr hx hw
    rw [h'.views r fc hr hx hw, h.views r fc hr hx hw]
  · intro d name v hd hs
    exact h'.blocks d name v hd (h.blocks d name v hd hs)

end Within

lemma view_setSgcb (hr : OffBlock r) : (mgr.setSgcb m name v).view r fc = m.view r fc := by
  apply view_objectMut_other (setObjectAttr_name name v)
  intro _ rest
  exact hr rest

lemma within_setSgcb : Within mgr.domain written m (mgr.setSgcb m name v) := by
  constructor
  · intro r fc hr _ _
    exact view_setSgcb hr
  · intro d other u hd hs
    exact hs.setObjectAttr_other fun h => absurd h.symm hd

lemma within_writeAttrs (hx : fc.Exact)
    (hfc : fc ≠ .sp) (hu : ∀ u ∈ updates, ∀ r, r.address = u.1.address → written fc r) :
    Within domain written m (writeAttrs fc m updates) := by
  constructor
  · intro r fc' _ hx' hw
    apply view_writeAttrs_other hx hx'
    rintro rfl u hm heq
    exact hw (hu u hm r heq.symm)
  · intro d name v _ hs
    exact hs.writeAttrs hx hfc

def groupOf (v : Value) : UInt8 := v.asI64.toUInt64.toUInt8

inductive Accepted (mgr : SettingGroupManager) (v : Value) : String → Prop where
  | active (h : 1 ≤ groupOf v ∧ groupOf v ≤ mgr.numOfSg) : Accepted mgr v "ActSG"
  | edit : Accepted mgr v "EditSG"
  | confirm (h : v.asBool = true) (he : 1 ≤ mgr.editSg ∧ mgr.editSg ≤ mgr.numOfSg) :
      Accepted mgr v "CnfEdit"
  | idle (h : v.asBool = false) : Accepted mgr v "CnfEdit"

lemma Accepted.editing (h : mgr.Accepted v attr) (hat : attr = "CnfEdit") (hv : v.asBool) :
    1 ≤ mgr.editSg ∧ mgr.editSg ≤ mgr.numOfSg := by
  cases h with
  | active | edit => exact absurd hat (by decide)
  | confirm _ he => exact he
  | idle hfalse =>
    rw [hv] at hfalse
    cases hfalse

lemma groupOf_range {n : UInt8} (h : 1 ≤ v.asI64.toInt ∧ v.asI64.toInt ≤ n.toNat) :
    1 ≤ groupOf v ∧ groupOf v ≤ n := by
  have hn : n.toNat < 256 := n.toNat_lt
  have hnat : ((groupOf v).toNat : ℤ) = v.asI64.toInt := by
    have hbits : v.asI64.toInt = ((v.asI64.toUInt64.toNat : ℕ) : ℤ) := by
      rw [← Int64.toInt_toBitVec, BitVec.toInt_eq_toNat_of_lt]
      · rfl
      have hpos := h.1
      rw [← Int64.toInt_toBitVec] at hpos
      have := BitVec.toInt_pos_iff (x := v.asI64.toBitVec)
      omega
    rw [hbits, groupOf, UInt64.toNat_toUInt8]
    omega
  constructor
  · rw [le_iff_toNat_le]
    show 1 ≤ (groupOf v).toNat
    omega
  · rw [le_iff_toNat_le]
    omega

lemma checkWrite_eq_ok (h : mgr.checkWrite attr v = .ok ()) : mgr.Accepted v attr := by
  unfold checkWrite at h
  dsimp only at h
  split at h
  next hat =>
    subst hat
    split at h
    · next hrg => exact .active (groupOf_range hrg)
    · cases h
  split at h
  next hat =>
    subst hat
    exact .edit
  split at h
  next hat =>
    subst hat
    split at h
    · cases h
    next hcond =>
    rcases hv : v.asBool with _ | _
    · exact .idle hv
    simp only [hv, Bool.true_and, Bool.not_eq_true', Bool.not_eq_false, Bool.and_eq_true,
      decide_eq_true_eq] at hcond
    exact .confirm hv hcond
  · cases h

variable {now : Value}

lemma onSgcbWrite_active (h : 1 ≤ groupOf v ∧ groupOf v ≤ mgr.numOfSg) :
    mgr.onSgcbWrite now m "ActSG" v = ({ mgr with actSg := groupOf v },
      writeAttrs .sg (mgr.setSgcb (mgr.setSgcb m "ActSG" (.uint8 (groupOf v))) "LActTm" now)
        (mgr.settings.map fun st => (st.sg, st.value (groupOf v)))) := by
  have hrg : ¬ (v.asI64.toUInt64.toUInt8 < 1 ∨ mgr.numOfSg < v.asI64.toUInt64.toUInt8) :=
    not_or.mpr ⟨UInt8.not_lt.mpr h.1, UInt8.not_lt.mpr h.2⟩
  unfold onSgcbWrite
  rw [if_pos rfl, if_neg hrg]
  rfl

lemma onSgcbWrite_edit : mgr.onSgcbWrite now m "EditSG" v = ({ mgr with editSg := groupOf v },
      if 1 ≤ groupOf v ∧ groupOf v ≤ mgr.numOfSg then
        writeAttrs .se (mgr.setSgcb m "EditSG" (.uint8 (groupOf v)))
          (mgr.settings.filterMap fun st => st.se.map fun se => (se, st.value (groupOf v)))
      else mgr.setSgcb m "EditSG" (.uint8 (groupOf v))) := by
  unfold onSgcbWrite
  rfl

lemma onSgcbWrite_idle (h : v.asBool = false) : mgr.onSgcbWrite now m "CnfEdit" v = (mgr, m) := by
  unfold onSgcbWrite
  rw [if_neg (by decide), if_neg (by decide), if_pos rfl, if_pos (by simp [h])]

lemma onSgcbWrite_confirm (h : v.asBool) (he : 1 ≤ mgr.editSg ∧ mgr.editSg ≤ mgr.numOfSg) :
    mgr.onSgcbWrite now m "CnfEdit" v =
      ({ mgr with editSg := 0, settings := mgr.settings.map (confirm m mgr.editSg) },
        mgr.setSgcb (mgr.setSgcb (writeAttrs .sg m
          (if mgr.editSg = mgr.actSg then mgr.settings.filterMap (edited m) else []))
          "EditSG" (.uint8 0)) "CnfEdit" (.boolean false)) := by
  have hcond : ¬ ((!v.asBool) ∨ mgr.editSg < 1 ∨ mgr.numOfSg < mgr.editSg) := by
    rw [not_or, not_or]
    exact ⟨by simp [h], UInt8.not_lt.mpr he.1, UInt8.not_lt.mpr he.2⟩
  unfold onSgcbWrite
  rw [if_neg (by decide), if_neg (by decide), if_pos rfl, if_neg hcond]

/-- A write of the control block is stored: `attr` shows another value, and everything else what it
showed. -/
structure Stored (domain attr : String) (m m' : Model) : Prop where
  within : Within domain (fun _ _ => False) m m'
  other : ∀ name v, name ≠ attr → SgcbShows m domain name v → SgcbShows m' domain name v
  same : ∀ v, SgcbShows m domain attr v → ∃ u, SgcbShows m' domain attr u

/-- No setting is part of a setting-group control block. -/
def OffBlocks (mgr : SettingGroupManager) : Prop := ∀ st ∈ mgr.settings, OffBlock st.sg

lemma exact_sg : Fc.Exact .sg := ⟨by decide, by decide⟩
lemma exact_se : Fc.Exact .se := ⟨by decide, by decide⟩

lemma Stored.settings (hst : Stored mgr.domain attr m m') (ho : mgr.OffBlocks) (h : mgr.Shown m) :
    ∀ st ∈ mgr.settings, m'.view st.sg .sg = some (st.value mgr.actSg) := by
  intro st hm
  rw [hst.within.views st.sg .sg (ho st hm) exact_sg id]
  exact h.settings st hm

lemma shown_active (hs : mgr.Sound) (ho : mgr.OffBlocks) (h : mgr.Shown m)
    (hst : Stored mgr.domain "ActSG" m m') (hg : 1 ≤ groupOf v ∧ groupOf v ≤ mgr.numOfSg) :
    (mgr.onSgcbWrite now m' "ActSG" v).1.Shown (mgr.onSgcbWrite now m' "ActSG" v).2 := by
  rw [onSgcbWrite_active hg]
  have hkeep : ∀ name u, name ≠ "ActSG" → name ≠ "LActTm" → SgcbShows m mgr.domain name u →
      SgcbShows (mgr.setSgcb (mgr.setSgcb m' "ActSG" (.uint8 (groupOf v))) "LActTm" now) mgr.domain name u := by
    intro name u h1 h2 hu
    exact ((hst.other name u h1 hu).setObjectAttr_other fun _ => h1).setObjectAttr_other fun _ => h2
  constructor
  · intro st hm
    apply view_writeAttrs_same exact_sg
    · rw [List.map_map]
      exact hs.distinct
    · exact List.mem_map.mpr ⟨st, hm, rfl⟩
    · rw [view_setSgcb (ho st hm), view_setSgcb (ho st hm), hst.settings ho h st hm]
      exact Option.some_ne_none _
  · exact (hkeep _ _ (by decide) (by decide) h.numOfSg).writeAttrs exact_sg (by decide)
  · obtain ⟨u, hu⟩ := hst.same _ h.actSg
    exact (hu.setObjectAttr_same.setObjectAttr_other fun _ => by decide).writeAttrs exact_sg (by decide)
  · exact (hkeep _ _ (by decide) (by decide) h.editSg).writeAttrs exact_sg (by decide)

lemma shown_edit (ho : mgr.OffBlocks) (h : mgr.Shown m) (hst : Stored mgr.domain "EditSG" m m') :
    (mgr.onSgcbWrite now m' "EditSG" v).1.Shown (mgr.onSgcbWrite now m' "EditSG" v).2 := by
  rw [onSgcbWrite_edit]
  have hshown : ({ mgr with editSg := groupOf v } : SettingGroupManager).Shown
      (mgr.setSgcb m' "EditSG" (.uint8 (groupOf v))) := by
    constructor
    · intro st hm
      rw [view_setSgcb (ho st hm)]
      exact hst.settings ho h st hm
    · exact (hst.other _ _ (by decide) h.numOfSg).setObjectAttr_other fun _ => by decide
    · exact (hst.other _ _ (by decide) h.actSg).setObjectAttr_other fun _ => by decide
    · obtain ⟨u, hu⟩ := hst.same _ h.editSg
      exact hu.setObjectAttr_same
  split
  · -- The edited view changes, and nothing of it is shown under SG or in the block.
    constructor
    · intro st hm
      rw [view_writeAttrs_other exact_se exact_sg fun hfc => by cases hfc]
      exact hshown.settings st hm
    · exact hshown.numOfSg.writeAttrs exact_se (by decide)
    · exact hshown.actSg.writeAttrs exact_se (by decide)
    · exact hshown.editSg.writeAttrs exact_se (by decide)
  · exact hshown

def live (mgr : SettingGroupManager) (m : Model) : List (ObjectReference × Value) :=
  if mgr.editSg = mgr.actSg then mgr.settings.filterMap (edited m) else []

lemma mem_live {u : ObjectReference × Value} (h : u ∈ mgr.live m) :
    mgr.editSg = mgr.actSg ∧ ∃ st ∈ mgr.settings, st.edited m = some u := by
  unfold live at h
  split at h
  · next heq => exact ⟨heq, mem_filterMap.mp h⟩
  · cases h

lemma nodup_live (hs : mgr.Sound) : ((mgr.live m).map fun u => u.1.address).Nodup := by
  unfold live
  split
  · rw [List.Nodup, pairwise_map, pairwise_filterMap]
    have hdist := hs.distinct
    rw [List.Nodup, pairwise_map] at hdist
    refine hdist.imp ?_
    intro st st' hne u hu u' hu'
    rw [(edited_eq_some hu).1, (edited_eq_some hu').1]
    exact hne
  · exact nodup_nil

variable {st : Setting}

lemma live_other (hs : mgr.Sound) (hm : st ∈ mgr.settings) (hst : st.edited m = none ∨ mgr.editSg ≠ mgr.actSg) :
    ∀ u ∈ mgr.live m, u.1.address ≠ st.sg.address := by
  intro u hu heq
  obtain ⟨hact, st', hmem', hedit⟩ := mem_live hu
  rw [(edited_eq_some hedit).1] at heq
  obtain rfl := inj_on_of_nodup_map hs.distinct hmem' hm heq
  rcases hst with hno | hne
  · rw [hedit] at hno
    cases hno
  · exact hne hact

lemma shown_confirm (hs : mgr.Sound) (ho : mgr.OffBlocks) (h : mgr.Shown m)
    (hst : Stored mgr.domain "CnfEdit" m m') (hv : v.asBool)
    (he : 1 ≤ mgr.editSg ∧ mgr.editSg ≤ mgr.numOfSg) :
    (mgr.onSgcbWrite now m' "CnfEdit" v).1.Shown (mgr.onSgcbWrite now m' "CnfEdit" v).2 := by
  rw [onSgcbWrite_confirm hv he]
  have hkeep : ∀ name u, name ≠ "CnfEdit" → name ≠ "EditSG" → SgcbShows m mgr.domain name u →
      SgcbShows (mgr.setSgcb (mgr.setSgcb (writeAttrs .sg m' (mgr.live m')) "EditSG" (.uint8 0))
        "CnfEdit" (.boolean false)) mgr.domain name u := by
    intro name u h1 h2 hu
    have hwritten : SgcbShows (writeAttrs .sg m' (mgr.live m')) mgr.domain name u :=
      (hst.other name u h1 hu).writeAttrs exact_sg (by decide)
    exact (hwritten.setObjectAttr_other fun _ => h2).setObjectAttr_other fun _ => h1
  constructor
  · intro st' hmem'
    obtain ⟨st, hm, rfl⟩ := mem_map.mp hmem'
    have hsized : mgr.editSg.toNat ≤ st.groups.length := by
      rw [hs.sized st hm]
      exact le_iff_toNat_le.mp he.2
    have hview := hst.settings ho h st hm
    rw [confirm_sg, view_setSgcb (ho st hm), view_setSgcb (ho st hm)]
    change (writeAttrs .sg m' (mgr.live m')).view st.sg .sg = _
    by_cases hact : mgr.editSg = mgr.actSg
    · cases hedit : st.edited m' with
      | none =>
        rw [confirm_of_none hedit, view_writeAttrs_other exact_sg exact_sg fun _ =>
          live_other hs hm (.inl hedit), hview]
      | some u =>
        -- The edited value is stored in the active group and brought into effect.
        have hval := value_confirm_same hedit ⟨he.1, hsized⟩
        rw [hact] at hval
        have hlv : (st.sg, u.2) ∈ mgr.live m' := by
          rw [live, if_pos hact]
          refine mem_filterMap.mpr ⟨st, hm, ?_⟩
          rw [hedit, ← (edited_eq_some hedit).1]
        rw [hact, hval]
        apply view_writeAttrs_same exact_sg (nodup_live hs) hlv
        rw [hview]
        exact some_ne_none _
    · rw [view_writeAttrs_other exact_sg exact_sg fun _ => live_other hs hm (.inr hact), hview]
      rw [value_confirm_other he.1 hs.active.1 (Ne.symm hact)]
  · exact hkeep _ _ (by decide) (by decide) h.numOfSg
  · exact hkeep _ _ (by decide) (by decide) h.actSg
  · have hedit : SgcbShows (writeAttrs .sg m' (mgr.live m')) mgr.domain "EditSG" (.uint8 mgr.editSg) :=
      (hst.other _ _ (by decide) h.editSg).writeAttrs exact_sg (by decide)
    exact hedit.setObjectAttr_same.setObjectAttr_other fun _ => by decide

lemma shown_onSgcbWrite (hs : mgr.Sound) (ho : mgr.OffBlocks) (h : mgr.Shown m)
    (hst : Stored mgr.domain attr m m') (ha : mgr.Accepted v attr) :
    (mgr.onSgcbWrite now m' attr v).1.Shown (mgr.onSgcbWrite now m' attr v).2 := by
  cases ha with
  | active hg => exact shown_active hs ho h hst hg
  | edit => exact shown_edit ho h hst
  | confirm hv he => exact shown_confirm hs ho h hst hv he
  | idle hv =>
    rw [onSgcbWrite_idle hv]
    exact ⟨hst.settings ho h, hst.other _ _ (by decide) h.numOfSg, hst.other _ _ (by decide) h.actSg,
      hst.other _ _ (by decide) h.editSg⟩

lemma sound_onSgcbWrite (hs : mgr.Sound) : (mgr.onSgcbWrite now m attr v).1.Sound := by
  dsimp only [onSgcbWrite]
  split
  · split
    · exact hs
    next hrg =>
      rw [not_or, UInt8.not_lt, UInt8.not_lt] at hrg
      exact ⟨hrg, hs.sized, hs.paired, hs.distinct⟩
  split
  · exact ⟨hs.active, hs.sized, hs.paired, hs.distinct⟩
  split
  · split
    · exact hs
    have hmap := hs.map_settings (confirm m mgr.editSg) fun st =>
      ⟨confirm_sg, confirm_se, confirm_length⟩
    exact ⟨hmap.active, hmap.sized, hmap.paired, hmap.distinct⟩
  · exact hs

/-- The settings whose views a write of the control block changes: the active view with the active group or when
that is confirmed, the edited view with the edited group. -/
def Writes (mgr : SettingGroupManager) (attr : String) (fc : Fc) (r : ObjectReference) : Prop :=
  (∃ st ∈ mgr.settings, st.sg.address = r.address) ∧
    (fc = .sg ∧ (attr = "ActSG" ∨ attr = "CnfEdit" ∧ mgr.editSg = mgr.actSg) ∨ fc = .se ∧ attr = "EditSG")

lemma within_onSgcbWrite (hs : mgr.Sound) (ha : mgr.Accepted v attr) :
    Within mgr.domain (mgr.Writes attr) m (mgr.onSgcbWrite now m attr v).2 := by
  cases ha with
  | active hg =>
    rw [onSgcbWrite_active hg]
    refine (within_setSgcb.trans within_setSgcb).trans (within_writeAttrs exact_sg (by decide) ?_)
    intro u hu r hr
    obtain ⟨st, hm, rfl⟩ := mem_map.mp hu
    exact ⟨⟨st, hm, hr.symm⟩, .inl ⟨rfl, .inl rfl⟩⟩
  | edit =>
    rw [onSgcbWrite_edit]
    split
    · refine within_setSgcb.trans (within_writeAttrs exact_se (by decide) ?_)
      intro u hu r hr
      obtain ⟨st, hm, hmap⟩ := mem_filterMap.mp hu
      obtain ⟨se, hse, rfl⟩ := map_eq_some_iff.mp hmap
      rw [hs.paired st hm se hse] at hr
      exact ⟨⟨st, hm, hr.symm⟩, .inr ⟨rfl, rfl⟩⟩
    · exact within_setSgcb
  | confirm hv he =>
    rw [onSgcbWrite_confirm hv he]
    refine Within.trans (within_writeAttrs exact_sg (by decide) ?_) (within_setSgcb.trans within_setSgcb)
    intro u hu r hr
    obtain ⟨hact, st, hm, hedit⟩ := mem_live hu
    rw [(edited_eq_some hedit).1] at hr
    exact ⟨⟨st, hm, hr.symm⟩, .inl ⟨rfl, .inr ⟨rfl, hact⟩⟩⟩
  | idle hv =>
    rw [onSgcbWrite_idle hv]
    exact .refl

/-- The groups of a setting after an edit is confirmed: the edited group holds the value of the edited
view, and the others hold what they held. -/
structure Confirmed (m : Model) (e : UInt8) (st st' : Setting) : Prop where
  sg : st'.sg = st.sg
  se : st'.se = st.se
  edited : ∀ r v, st.se = some r → m.view r .se = some v → st'.value e = v
  unedited : st.edited m = none → st' = st
  others : ∀ g, 1 ≤ g → g ≠ e → st'.value g = st.value g

lemma Confirmed.congr {e : UInt8} {st' : Setting} (h : Confirmed m e st st')
    (hv : ∀ r, st.se = some r → m.view r .se = m'.view r .se) : Confirmed m' e st st' := by
  refine ⟨h.sg, h.se, ?_, ?_, h.others⟩
  · intro r v hr hview
    exact h.edited r v hr ((hv r hr).trans hview)
  intro hno
  apply h.unedited
  rcases hedit : st.edited m with _ | u
  · rfl
  obtain ⟨-, r, hr, hview⟩ := edited_eq_some hedit
  rw [edited_of_view hr ((hv r hr).symm.trans hview)] at hno
  cases hno

lemma confirmed_onSgcbWrite (hs : mgr.Sound) (hv : v.asBool) (he : 1 ≤ mgr.editSg ∧ mgr.editSg ≤ mgr.numOfSg)
    (hview : ∀ st ∈ mgr.settings, ∀ r, st.se = some r → m.view r .se = m'.view r .se) :
    List.Forall₂ (Confirmed m' mgr.editSg) mgr.settings (mgr.onSgcbWrite now m "CnfEdit" v).1.settings := by
  rw [onSgcbWrite_confirm hv he, forall₂_map_right_iff, forall₂_same]
  intro st hm
  have hsized : mgr.editSg.toNat ≤ st.groups.length := by
    rw [hs.sized st hm]
    exact le_iff_toNat_le.mp he.2
  have hconfirmed : Confirmed m mgr.editSg st (st.confirm m mgr.editSg) := by
    refine ⟨confirm_sg, confirm_se, ?_, confirm_of_none, ?_⟩
    · intro r u hr hu
      exact value_confirm_same (edited_of_view hr hu) ⟨he.1, hsized⟩
    · intro g hg hne
      exact value_confirm_other he.1 hg hne
  exact hconfirmed.congr (hview st hm)

lemma settings_onSgcbWrite (h : attr = "CnfEdit" → v.asBool = false) :
    (mgr.onSgcbWrite now m attr v).1.settings = mgr.settings := by
  dsimp only [onSgcbWrite]
  split
  · split <;> rfl
  split
  · rfl
  split
  · next hat => rw [if_pos (by simp [h hat])]
  · rfl

lemma refs_onSgcbWrite : (mgr.onSgcbWrite now m attr v).1.settings.map sg = mgr.settings.map sg := by
  dsimp only [onSgcbWrite]
  repeat' split
  all_goals simp [Function.comp_def]

lemma domain_onSgcbWrite : (mgr.onSgcbWrite now m attr v).1.domain = mgr.domain := by
  dsimp only [onSgcbWrite]
  repeat' split
  all_goals rfl

lemma Shown.congr (h : mgr.Shown m) (hv : ∀ st ∈ mgr.settings, m'.view st.sg .sg = m.view st.sg .sg)
    (hb : ∀ name v, SgcbShows m mgr.domain name v → SgcbShows m' mgr.domain name v) : mgr.Shown m' := by
  refine ⟨?_, hb _ _ h.numOfSg, hb _ _ h.actSg, hb _ _ h.editSg⟩
  intro st hm
  rw [hv st hm]
  exact h.settings st hm

lemma Shown.within (h : mgr.Shown m) (hw : Within domain written m m') (hd : mgr.domain ≠ domain) (ho : mgr.OffBlocks)
    (hn : ∀ st ∈ mgr.settings, ¬ written .sg st.sg) : mgr.Shown m' :=
  h.congr (fun st hm => hw.views st.sg .sg (ho st hm) exact_sg (hn st hm)) fun _ _ => hw.blocks _ _ _ hd

end SettingGroupManager

lemma slash_child (h : '/' ∈ r.text.toList) (name : String) : '/' ∈ (r.child name).text.toList := by
  simp [child, h]

mutual
theorem slash_collectSettingAttr {path : ObjectReference} (h : '/' ∈ path.text.toList) :
    ∀ (a : DataAttribute), ∀ t ∈ collectSettingAttr fc path a, '/' ∈ t.toList
  | ⟨_, _, _, _, _, children, _, _, _⟩ => by
    intro t ht
    rw [collectSettingAttr] at ht
    split at ht
    · split at ht
      · rw [List.mem_singleton.mp ht]
        exact h
      · cases ht
    · exact slash_collectSettingAttrList h children t ht

theorem slash_collectSettingAttrList {path : ObjectReference} (h : '/' ∈ path.text.toList) :
    ∀ (as : List DataAttribute), ∀ t ∈ collectSettingAttrList fc path as, '/' ∈ t.toList
  | [] => by
    intro t ht
    cases ht
  | a :: as => by
    intro t ht
    rcases List.mem_append.mp ht with ht | ht
    · exact slash_collectSettingAttr (slash_child h a.name) a t ht
    · exact slash_collectSettingAttrList h as t ht
end

mutual
theorem slash_collectSettingAttrs {base : ObjectReference} (h : '/' ∈ base.text.toList) :
    ∀ (o : DataObject), ∀ t ∈ collectSettingAttrs fc base o, '/' ∈ t.toList
  | ⟨_, objects, attributes, _⟩ => by
    intro t ht
    rcases List.mem_append.mp ht with ht | ht
    · exact slash_collectSettingAttrList h attributes t ht
    · exact slash_collectSettingAttrsList h objects t ht

theorem slash_collectSettingAttrsList {base : ObjectReference} (h : '/' ∈ base.text.toList) :
    ∀ (os : List DataObject), ∀ t ∈ collectSettingAttrsList fc base os, '/' ∈ t.toList
  | [] => by
    intro t ht
    cases ht
  | o :: os => by
    intro t ht
    rcases List.mem_append.mp ht with ht | ht
    · exact slash_collectSettingAttrs (slash_child h o.name) o t ht
    · exact slash_collectSettingAttrsList h os t ht
end

lemma slash_settingPaths {ld : LogicalDevice} {t : String} (ht : t ∈ settingPaths fc ld) : '/' ∈ t.toList := by
  rw [settingPaths, mem_insertionSort, mem_dedup] at ht
  obtain ⟨ln, -, ht⟩ := mem_flatMap.mp ht
  obtain ⟨o, -, ht⟩ := mem_flatMap.mp ht
  refine slash_collectSettingAttrs ?_ o t ht
  simp

lemma nodup_settingPaths (fc : Fc) (ld : LogicalDevice) : (settingPaths fc ld).Nodup :=
  (perm_insertionSort _ _).nodup_iff.mpr (nodup_dedup _)

lemma eq_of_address {a b : String} (ha : '/' ∈ a.toList) (hb : '/' ∈ b.toList)
    (h : (⟨a⟩ : ObjectReference).address = (⟨b⟩ : ObjectReference).address) : a = b := by
  obtain ⟨ld, rest, hsplit⟩ := Text.splitOnce_of_mem ha
  obtain ⟨ld', rest', hsplit'⟩ := Text.splitOnce_of_mem hb
  obtain ⟨hld, hpath⟩ := Prod.mk.inj h
  simp only [ObjectReference.ld, ObjectReference.path, hsplit, hsplit'] at hld hpath
  have hrs := Text.split_injective '.' hpath
  have hslash : "/".toList = ['/'] := rfl
  rw [Text.eq_of_splitOnce hslash hsplit, Text.eq_of_splitOnce hslash hsplit', hrs]
  simpa using hld

variable {ld ld' : LogicalDevice} {n : UInt8} {resvTms : UInt32} {now : Value} {declared : Bool}
  {mgr : SettingGroupManager}

lemma buildManager_sound (h : buildManager ld n resvTms now declared = some (ld', mgr)) (hn : n ≠ 0) :
    mgr.Sound ∧ mgr.domain = ld.name ∧ ld'.name = ld.name ∧ mgr.numOfSg = n := by
  unfold buildManager at h
  dsimp only at h
  split at h
  · cases h
  obtain ⟨_, -, heq⟩ := Option.map_eq_some_iff.mp h
  obtain ⟨rfl, rfl⟩ := Prod.mk.inj heq
  refine ⟨⟨?_, ?_, ?_, ?_⟩, rfl, rfl, rfl⟩
  · refine ⟨UInt8.le_refl 1, ?_⟩
    have hpos : n.toNat ≠ 0 := fun hz => hn (UInt8.toNat_inj.mp hz)
    exact Nat.one_le_iff_ne_zero.mpr hpos
  · intro st hst
    obtain ⟨path, -, rfl⟩ := List.mem_map.mp hst
    exact List.length_replicate
  · intro st hst r hr
    obtain ⟨path, -, rfl⟩ := List.mem_map.mp hst
    split at hr
    · exact (Option.some.inj hr).symm
    · cases hr
  · rw [List.map_map]
    refine (nodup_settingPaths .sg ld).map_on ?_
    intro a ha b hb hab
    exact eq_of_address (slash_settingPaths ha) (slash_settingPaths hb) hab

lemma seedGroups_sound (seeds : List SettingGroup) (h : mgr.Sound) :
    (seedGroups seeds mgr).Sound ∧ (seedGroups seeds mgr).domain = mgr.domain ∧
      (seedGroups seeds mgr).numOfSg = mgr.numOfSg := by
  refine ⟨?_, rfl, rfl⟩
  refine foldlRecOn (motive := fun (settings : List Setting) =>
    SettingGroupManager.Sound { mgr with settings := settings }) seeds _ h ?_
  intro settings hs g _
  split
  · exact hs
  -- One seed replaces the value of its group in the settings that it lists.
  refine hs.map_settings _ ?_
  intro st
  split
  · exact ⟨rfl, rfl, length_set⟩
  · exact ⟨rfl, rfl, rfl⟩

lemma materialiseSgcb_sound {seeds : List SettingGroup} {numOfSg : UInt8}
    (h : (materialiseSgcb seeds numOfSg now ld).2 = some mgr) :
    mgr.domain = (materialiseSgcb seeds numOfSg now ld).1.name ∧ mgr.Sound := by
  unfold materialiseSgcb at h ⊢
  dsimp only at h ⊢
  split at h
  · cases h
  next hn =>
  rw [if_neg hn]
  split at h
  · cases h
  next ld' mgr' hbuild =>
  obtain ⟨hsnd, hdom, hnm, hnum⟩ := buildManager_sound hbuild hn
  obtain ⟨hseeded, hd, hnum'⟩ := seedGroups_sound seeds hsnd
  split at h
  next hact =>
    obtain rfl := some.inj h
    exact ⟨hd.trans (hdom.trans hnm.symm), hseeded⟩
  next act hact =>
  -- The configuration declares which of the groups is active.
  obtain rfl := some.inj h
  have hrg := (filter_eq_some_iff.mp hact).2
  rw [Bool.and_eq_true, decide_eq_true_eq, decide_eq_true_eq] at hrg
  refine ⟨hd.trans (hdom.trans hnm.symm), ?_, hseeded.sized, hseeded.paired, hseeded.distinct⟩
  rw [hnum', hnum]
  exact hrg

lemma materialiseSgcbs_sound (m : Model) (numOfSg : UInt8) :
    (materialiseSgcbs m numOfSg now).2.All fun d mgr => mgr.domain = d ∧ mgr.Sound := by
  dsimp only [materialiseSgcbs]
  rw [foldl_map]
  refine foldlRecOn (motive := fun (t : Table String SettingGroupManager) =>
    t.All fun d mgr => mgr.domain = d ∧ mgr.Sound) m.devices _ Table.all_empty ?_
  intro t ht ld _
  split
  · next mgr hmgr => exact ht.insert (materialiseSgcb_sound hmgr)
  · exact ht

open Inner Access DataObject AList

def SettingGroupManager.refs (mgr : SettingGroupManager) : List ObjectReference :=
  mgr.settings.map Setting.sg

namespace Inner

def Consistent (s : Inner) : Prop := s.settingGroups.All fun _ mgr => mgr.Shown s.model

/-- The setting groups are those of their device, and no control block of them is a tracking object. -/
structure SettingsPlaced (s : Inner) : Prop where
  sound : s.settingGroups.All fun d mgr => mgr.domain = d ∧ mgr.Sound
  blocks : ∀ o, s.tracker.Has o → o.object ≠ sgcbName

/-- No setting is part of a setting-group control block or of a tracking object, or a setting of two devices.
-/
structure SettingsApart (s : Inner) : Prop where
  offBlocks : s.settingGroups.All fun _ mgr => ∀ r ∈ mgr.refs, OffBlock r
  untracked : s.settingGroups.All fun _ mgr => ∀ r ∈ mgr.refs, ∀ o, s.tracker.Has o → r.ld = o.ld →
    ∀ rest, r.path ≠ o.ln :: o.object :: rest
  distinct : ∀ d d' mgr mgr', d ≠ d' → s.settingGroups.lookup d = some mgr →
    s.settingGroups.lookup d' = some mgr' → ∀ r ∈ mgr.refs, ∀ r' ∈ mgr'.refs, r.address ≠ r'.address

/-- How the setting groups of a server change: only by a write of a control block. -/
inductive SettingsStep (s s' : Inner) : Prop where
  | same (ht : s'.tracker = s.tracker) (hs : s'.settingGroups = s.settingGroups)
  | write {domain attr : String} {mgr : SettingGroupManager} {now v : Value} {m : Model}
      (ht : s'.tracker = s.tracker) (hmgr : s.settingGroups.lookup domain = some mgr)
      (hs : s'.settingGroups = s.settingGroups.insert domain (mgr.onSgcbWrite now m attr v).1)

variable {cfg : Config} {w : WriteCtx} {domain item object attr : String} {v : Value} {s s' : Inner}
  {mgr : SettingGroupManager}

lemma track_settingGroups (controlBlock : Bool) (res : Except DataAccessError Unit) :
    (s.track w domain item v controlBlock res).settingGroups = s.settingGroups := by
  unfold track
  split <;> rfl

lemma track_tracker (controlBlock : Bool) (res : Except DataAccessError Unit) :
    (s.track w domain item v controlBlock res).tracker = s.tracker := by
  unfold track
  split <;> rfl

lemma SettingsStep.track {t : Inner} (h : SettingsStep s t) (controlBlock : Bool) (res : Except DataAccessError Unit) :
    SettingsStep s (t.track w domain item v controlBlock res) := by
  cases h with
  | same ht hs => exact .same ((track_tracker _ _).trans ht) ((track_settingGroups _ _).trans hs)
  | write ht hmgr hs => exact .write ((track_tracker _ _).trans ht) hmgr ((track_settingGroups _ _).trans hs)

lemma settingsStep_writeOne : SettingsStep s (s.writeOne cfg w domain item v).1 := by
  refine writeOne_rule (.same rfl rfl) (fun _ _ _ h => h.track _ _) fun s₁ _ hsto => ?_
  obtain ⟨changes, -, rfl⟩ := store_eq_ok hsto
  cases s.target domain item with
  | setting attr =>
    unfold effect
    cases hmgr : s.settingGroups.lookup domain with
    | none => exact .same rfl rfl
    | some mgr => exact .write rfl hmgr rfl
  | report | log | sampled | plain => exact .same rfl rfl

lemma settingsStep_serve (x : Service) : SettingsStep s (s.serve cfg x) := by
  cases x with
  | write w domain item v => exact settingsStep_writeOne
  | operate | defineDataSet => exact .same rfl rfl
  | deleteDataSet domain list =>
    dsimp only [serve, deleteDataset]
    repeat' split
    all_goals exact .same rfl rfl
  | endAssociation conn now =>
    dsimp only [serve, endAssociation]
    repeat' split
    all_goals exact .same rfl rfl
  | engine x =>
    dsimp only [serve]
    split
    all_goals exact .same rfl rfl

lemma SettingsStep.placed (h : SettingsStep s s') (hp : s.SettingsPlaced) : s'.SettingsPlaced := by
  cases h with
  | same ht hs => exact ⟨hs ▸ hp.sound, ht ▸ hp.blocks⟩
  | write ht hmgr hs =>
    refine ⟨?_, ht ▸ hp.blocks⟩
    obtain ⟨hd, hsnd⟩ := hp.sound _ _ hmgr
    rw [hs]
    apply hp.sound.insert
    exact ⟨domain_onSgcbWrite.trans hd, sound_onSgcbWrite hsnd⟩

variable {d : String}

section
variable (h : SettingsStep s s')
include h

lemma SettingsStep.refs {mgr' : SettingGroupManager} (hd : s'.settingGroups.lookup d = some mgr') :
    ∃ mgr, s.settingGroups.lookup d = some mgr ∧ mgr'.refs = mgr.refs := by
  cases h with
  | same ht hs => exact ⟨mgr', hs ▸ hd, rfl⟩
  | @write domain attr mgr now v m ht hmgr hs =>
    rw [hs] at hd
    rcases Table.lookup_insert_eq_some.mp hd with ⟨rfl, rfl⟩ | ⟨-, hd⟩
    · exact ⟨mgr, hmgr, refs_onSgcbWrite⟩
    · exact ⟨mgr', hd, rfl⟩

lemma SettingsStep.tracker : s'.tracker = s.tracker := by
  cases h with
  | same ht _ => exact ht
  | write ht _ _ => exact ht

omit h in
/-- In every run the tracker is the one that the server was started with. -/
theorem tracker_run (cfg : Config) (opts : Options) (m : Model) (xs : List Service) :
    ((Inner.new opts m).run cfg xs).tracker = Tracker.build (servedModel opts m) :=
  Runs.invariant (fun s : Inner => s.tracker = Tracker.build (servedModel opts m))
    (fun _ x ht => (settingsStep_serve x).tracker.trans ht) rfl xs

lemma SettingsStep.apart (ha : s.SettingsApart) : s'.SettingsApart := by
  constructor
  · intro d mgr' hd r hr
    obtain ⟨mgr, hmgr, hrefs⟩ := h.refs hd
    exact ha.offBlocks d mgr hmgr r (hrefs ▸ hr)
  · intro d mgr' hd r hr
    obtain ⟨mgr, hmgr, hrefs⟩ := h.refs hd
    rw [h.tracker]
    exact ha.untracked d mgr hmgr r (hrefs ▸ hr)
  intro d d' mgr1 mgr2 hne h1 h2 r hr r' hr'
  obtain ⟨mgr, hmgr, hrefs⟩ := h.refs h1
  obtain ⟨mgr', hmgr', hrefs'⟩ := h.refs h2
  exact ha.distinct d d' mgr mgr' hne hmgr hmgr' r (hrefs ▸ hr) r' (hrefs' ▸ hr')

end

lemma SettingsApart.off (ha : s.SettingsApart) (hd : s.settingGroups.lookup d = some mgr) : mgr.OffBlocks :=
  fun st hm => ha.offBlocks d mgr hd st.sg (mem_map_of_mem hm)

lemma view_track {r : ObjectReference} {fc : Fc} (controlBlock : Bool) (res : Except DataAccessError Unit)
    (hr : ∀ o, s.tracker.Has o → r.ld = o.ld → ∀ rest, r.path ≠ o.ln :: o.object :: rest) :
    (s.track w domain item v controlBlock res).model.view r fc = s.model.view r fc := by
  rcases hpath : r.path with _ | ⟨l, rest⟩
  · simp only [Model.view, Model.attribute, Model.attributeMut, hpath]
  rcases rest with _ | ⟨o, rest⟩
  · simp only [Model.view, Model.attribute, Model.attributeMut, hpath]
  rw [Model.view_of_path hpath, Model.view_of_path hpath, object_track_of_untracked]
  intro trk htrk heq
  obtain ⟨hld, hln, hobj⟩ := triple_inj heq
  exact hr trk htrk hld rest (by rw [hpath, hln, hobj])

lemma shows_track {name : String} {u : Value} (hp : s.SettingsPlaced) (controlBlock : Bool)
    (res : Except DataAccessError Unit) (h : SgcbShows s.model d name u) :
    SgcbShows (s.track w domain item v controlBlock res).model d name u := by
  obtain ⟨o, a, ho, hat, hfc, hv⟩ := h
  refine ⟨o, a, ?_, hat, hfc, hv⟩
  rw [object_track_of_untracked, ho]
  intro trk htrk heq
  obtain ⟨-, -, hobj⟩ := triple_inj heq
  exact hp.blocks trk htrk hobj.symm

lemma consistent_track (hp : s.SettingsPlaced) (ha : s.SettingsApart) (controlBlock : Bool)
    (res : Except DataAccessError Unit) (h : s.Consistent) :
    (s.track w domain item v controlBlock res).Consistent := by
  intro d mgr hd
  rw [track_settingGroups] at hd
  apply (h d mgr hd).congr
  · intro st hm
    exact view_track _ _ (ha.untracked d mgr hd st.sg (mem_map_of_mem hm))
  · intro name u hu
    exact shows_track hp _ _ hu

lemma stored_putItem {m : Model} (hsplit : split '$' item = ["LLN0", "SP", sgcbName, attr]) :
    Stored domain attr m (putItem m domain item v) := by
  have hput : putItem m domain item v = m.objectMut domain "LLN0" sgcbName
      (writeBelowMut .sp (fun da => { da with value := some v }) [attr]) := by
    have hpath : writePath item = some (sgcbName, .sp, [attr]) := by
      rw [writePath, hsplit]
      have hsp : Fc.parseLenient "SP" = .sp := by decide
      simp only [hsp]
    rw [putItem, hpath, hsplit]
    rfl
  have hnm : ∀ x, (writeBelowMut .sp (fun da => { da with value := some v }) [attr] x).name =
      x.name := writeBelowMut_name [attr]
  rw [hput]
  refine ⟨⟨?_, ?_⟩, ?_, ?_⟩
  · intro r fc hr _ _
    exact view_objectMut_other hnm fun _ rest => hr rest
  · intro d name u hd hu
    exact hu.objectMut hnm fun x a heq => absurd heq.symm hd
  · intro name u hne hu
    apply hu.objectMut hnm
    intro x a _ hat _
    rw [writeBelowMut_last]
    exact attr_onAttribute_kept (keepsPlace_put v) (fun c => c == .sp) hat
      fun h => absurd h hne
  rintro u ⟨o, a, ho, hat, hfc, -⟩
  refine ⟨v, writeBelowMut .sp (fun da => { da with value := some v }) [attr] o,
    { a with value := some v }, ?_, ?_, hfc, rfl⟩
  · rw [object_objectMut_same m hnm, ho, map_some]
  -- The first attribute of the name is the one under SP.
  have haname : a.name = attr := by simpa using find?_some hat
  refine FirstMatch.find_update_hit ?_ ?_ hat ?_
  · intro b hb
    exact (Bool.and_eq_true _ _ ▸ hb).1
  · intro b
    rfl
  · simp [haname, hfc]

def worked (s : Inner) (w : WriteCtx) (domain item attr : String) (v : Value) (changes : Table ConnId ChangeSet)
    (mgr : SettingGroupManager) : Inner :=
  let done := mgr.onSgcbWrite w.stamp (putItem s.model domain item v) attr v
  { s with model := done.2, changes := changes, settingGroups := s.settingGroups.insert domain done.1 }

section
variable (hsplit : split '$' item = ["LLN0", "SP", sgcbName, attr])
include hsplit

lemma isSgcbWrite_of_split : isSgcbWrite item = some attr := by
  simp [isSgcbWrite, hsplit]

lemma target_setting (hmgr : s.settingGroups.lookup domain = some mgr) : s.target domain item = .setting attr := by
  simp [target, rcbKey, hsplit, isSgcbWrite_of_split hsplit, hmgr, Option.filter]

lemma target_no_setting (hmgr : s.settingGroups.lookup domain = none) : s.target domain item = .plain := by
  simp [target, rcbKey, lcbKey, svcbKey, hsplit, isSgcbWrite_of_split hsplit, hmgr]

lemma accepted_setting (hmgr : s.settingGroups.lookup domain = some mgr)
    (hacc : (s.writeOne cfg w domain item v).2.1 = .ok ()) :
    mgr.Accepted v attr ∧ ∃ changes, (s.writeOne cfg w domain item v).1 =
      (s.worked w domain item attr v changes mgr).track w domain item v true (.ok ()) := by
  obtain ⟨s₁, hchk, hsto, heq⟩ := writeOne_accepted_eq hacc
  rw [target_setting hsplit hmgr] at hchk hsto heq
  obtain ⟨changes, -, rfl⟩ := store_eq_ok hsto
  simp only [check, hmgr] at hchk
  refine ⟨checkWrite_eq_ok hchk, changes, ?_⟩
  rw [heq]
  simp only [effect, hmgr]
  rfl

end

lemma consistent_worked (hp : s.SettingsPlaced) (ha : s.SettingsApart) (h : s.Consistent)
    (hsplit : split '$' item = ["LLN0", "SP", sgcbName, attr])
    (hmgr : s.settingGroups.lookup domain = some mgr) (hacc : mgr.Accepted v attr)
    (changes : Table ConnId ChangeSet) : (s.worked w domain item attr v changes mgr).Consistent := by
  obtain ⟨hd, hsnd⟩ := hp.sound domain mgr hmgr
  have hstd : Stored domain attr s.model (putItem s.model domain item v) := stored_putItem hsplit
  intro d mgr' hd'
  unfold worked at hd' ⊢
  by_cases heq : d = domain
  · subst heq
    rw [lookup_insert] at hd'
    obtain rfl := some.inj hd'
    have hown : Stored mgr.domain attr s.model (putItem s.model d item v) := by
      rw [hd]
      exact hstd
    exact shown_onSgcbWrite hsnd (ha.off hmgr) (h d mgr hmgr) hown hacc
  -- The groups of another device, whose settings are other attributes.
  rw [lookup_insert_ne heq] at hd'
  have hoth : mgr'.domain ≠ domain := (hp.sound d mgr' hd').1 ▸ heq
  have hshown := (h d mgr' hd').within hstd.within hoth (ha.off hd') fun _ _ => id
  have hwork : Within domain (mgr.Writes attr) (putItem s.model domain item v)
      (mgr.onSgcbWrite w.stamp (putItem s.model domain item v) attr v).2 :=
    hd ▸ within_onSgcbWrite hsnd hacc
  refine hshown.within hwork hoth (ha.off hd') ?_
  rintro st hm ⟨⟨st', hmem', haddr⟩, -⟩
  exact ha.distinct domain d mgr mgr' (Ne.symm heq) hmgr hd' st'.sg (mem_map_of_mem hmem') st.sg
    (mem_map_of_mem hm) haddr

variable {da : DataAttribute} {m : Model}

lemma putItem_edit {path : List String} (hpath : writePath item = some (object, .se, path)) :
    (∀ r, (putItem m domain item v).view r .sg = m.view r .sg) ∧
      ∀ d name u, SgcbShows m d name u → SgcbShows (putItem m domain item v) d name u := by
  have hnm : ∀ x, (writeBelowMut .se (fun da => { da with value := some v }) path x).name =
      x.name := writeBelowMut_name path
  rw [putItem, hpath]
  constructor
  · intro r
    apply view_objectMut_unseen hnm
    intro x q
    exact view_writeBelowMut_other (keepsPlace_put v) exact_sg (by decide) path q x
  intro d name u hu
  apply hu.objectMut hnm
  intro x a _ hat hfc
  exact attr_writeBelowMut (keepsPlace_put v) hat (by rw [hfc]; decide) path

lemma edit_plain (h : s.Addresses domain item object .se da) :
    s.target domain item = .plain ∧ ∀ (s' : Inner) res, s'.track w domain item v false res = s' := by
  obtain ⟨ln, f, first, rest, hsplit, hfc⟩ := h.parts
  have hne : ∀ f ∈ ["RP", "BR", "LG", "MS", "US", "SP", "GO"], Fc.parseLenient f ≠ .se := by decide
  constructor
  · apply target_eq_plain hsplit
    · intro hf
      exact hne f (mem_append_left ["SP", "GO"] hf) hfc
    apply isSgcbWrite_eq_none hsplit
    intro hf
    exact hne f (by rw [hf]; decide) hfc
  intro s' res
  have hgo : f ≠ "GO" := fun hf => hne f (by rw [hf]; decide) hfc
  rw [track, hsplit, if_neg]
  simp [hgo]

lemma writeOne_edit (cfg : Config) (w : WriteCtx) (v : Value) (h : s.Addresses domain item object .se da) :
    (s.writeOne cfg w domain item v).1.settingGroups = s.settingGroups ∧
      (∀ r, (s.writeOne cfg w domain item v).1.model.view r .sg = s.model.view r .sg) ∧
      ∀ d name u, SgcbShows s.model d name u → SgcbShows (s.writeOne cfg w domain item v).1.model d name u := by
  obtain ⟨htgt, htrack⟩ := edit_plain h
  rcases hres : (s.writeOne cfg w domain item v).2.1 with e | u
  · rw [writeOne_refused hres, htgt]
    rw [show CbTarget.plain.controlBlock = false from rfl, htrack]
    exact ⟨rfl, fun _ => rfl, fun _ _ _ hu => hu⟩
  obtain ⟨s₁, -, hsto, heq⟩ := writeOne_accepted_eq hres
  obtain ⟨changes, -, rfl⟩ := store_eq_ok hsto
  obtain ⟨path, hpath⟩ := h.path
  rw [heq, htgt, show CbTarget.plain.controlBlock = false from rfl, htrack]
  exact ⟨rfl, (putItem_edit hpath).1, (putItem_edit hpath).2⟩

def SettingWrite (s : Inner) : Service → Prop
  | .write _ domain item _ =>
    (∃ da, s.Addresses domain item sgcbName .sp da ∧ (split '$' item).headD "" = "LLN0") ∨
      ∃ object da, s.Addresses domain item object .se da
  | _ => False

def BlockSpelled : Service → Prop
  | .write _ _ item _ => ∀ f, (split '$' item)[1]? = some f → Fc.parseLenient f = .sp → Spelled item .sp
  | _ => True

lemma split_of_spelled (h : s.Addresses domain item sgcbName .sp da)
    (hln : (split '$' item).headD "" = "LLN0") (hspl : BlockSpelled (.write w domain item v)) :
    ∃ attr, split '$' item = ["LLN0", "SP", sgcbName, attr] := by
  obtain ⟨ln, f, first, rest, hsplit, hfc⟩ := h.parts
  obtain ⟨hsp, hlen⟩ := hspl f (by rw [hsplit]; rfl) hfc
  rw [hsplit] at hsp hln
  have hrs : rest = [] := by
    have hfour := hlen rfl
    rw [hsplit] at hfour
    exact length_eq_zero_iff.mp (by simpa using hfour)
  refine ⟨first, ?_⟩
  rw [hsplit, hrs]
  simp only [headD_cons] at hln
  have hf : f = "SP" := by simpa [Fc.asStr] using hsp
  rw [hln, hf]

/-- What a write of a control block or of a setting under SE does besides keeping the views: under SE
nothing is stored and nothing comes into effect; a confirmed edit alone stores the edited view, in exactly
the edited group, and brings it into effect only when that is the active one. -/
structure SettingEffect (s s' : Inner) (accepted : Prop) (domain item : String) (v : Value) : Prop where
  edits : (∃ object da, s.Addresses domain item object .se da) →
    s'.settingGroups = s.settingGroups ∧ ∀ r, s'.model.view r .sg = s.model.view r .sg
  stored : ¬ (isSgcbWrite item = some "CnfEdit" ∧ v.asBool = true) → ∀ d,
    (s'.settingGroups.lookup d).map settings = (s.settingGroups.lookup d).map settings
  others : ∀ d, d ≠ domain → s'.settingGroups.lookup d = s.settingGroups.lookup d
  confirms : accepted → isSgcbWrite item = some "CnfEdit" → v.asBool = true → ∀ mgr,
    s.settingGroups.lookup domain = some mgr → ∃ mgr', s'.settingGroups.lookup domain = some mgr' ∧
      List.Forall₂ (Confirmed s.model mgr.editSg) mgr.settings mgr'.settings ∧
      (∀ st ∈ mgr.settings, ∀ r, st.se = some r → s'.model.view r .se = s.model.view r .se) ∧
      (mgr.editSg ≠ mgr.actSg → ∀ st ∈ mgr.settings, s'.model.view st.sg .sg = s.model.view st.sg .sg)

def SettingKept (cfg : Config) (s : Inner) : Service → Prop
  | .write w domain item v => (s.writeOne cfg w domain item v).1.Consistent ∧
      s.SettingEffect (s.writeOne cfg w domain item v).1 ((s.writeOne cfg w domain item v).2.1 = .ok ()) domain item v
  | _ => True

section OneWrite

lemma not_edit (hsplit : split '$' item = ["LLN0", "SP", sgcbName, attr]) :
    ¬ ∃ object da, s.Addresses domain item object .se da := by
  rintro ⟨object, da, h⟩
  obtain ⟨ln, f, first, rest, hps, hfc⟩ := h.parts
  rw [hsplit] at hps
  rw [← (cons.inj (cons.inj hps).2).1] at hfc
  exact absurd hfc (by decide)

lemma settingKept_edit (h : s.Addresses domain item object .se da) (hc : s.Consistent) :
    SettingKept cfg s (.write w domain item v) := by
  obtain ⟨hgrp, hview, hshows⟩ := writeOne_edit cfg w v h
  refine ⟨?_, fun _ => ⟨hgrp, hview⟩, fun _ d => by rw [hgrp], fun d _ => by rw [hgrp], ?_⟩
  · intro d mgr hd
    rw [hgrp] at hd
    exact (hc d mgr hd).congr (fun st _ => hview st.sg) fun name u => hshows _ name u
  -- An item under SE is none of the control block.
  intro _ hsg
  exact absurd ⟨object, da, h⟩ (not_edit (isSgcbWrite_eq_some hsg))

lemma settingKept_of_same (hsplit : split '$' item = ["LLN0", "SP", sgcbName, attr])
    (hgrp : (s.writeOne cfg w domain item v).1.settingGroups = s.settingGroups)
    (hc : (s.writeOne cfg w domain item v).1.Consistent)
    (hn : (s.writeOne cfg w domain item v).2.1 = .ok () → s.settingGroups.lookup domain = none) :
    SettingKept cfg s (.write w domain item v) := by
  refine ⟨hc, fun h => absurd h (not_edit hsplit), fun _ d => by rw [hgrp],
    fun d _ => by rw [hgrp], ?_⟩
  intro hacc _ _ mgr hmgr
  rw [hn hacc] at hmgr
  cases hmgr

variable (hp : s.SettingsPlaced) (ha : s.SettingsApart) (hc : s.Consistent)
  (hsplit : split '$' item = ["LLN0", "SP", sgcbName, attr])
include hp ha hc hsplit

lemma settingKept_refused {e : DataAccessError} (hres : (s.writeOne cfg w domain item v).2.1 = .error e) :
    SettingKept cfg s (.write w domain item v) := by
  apply settingKept_of_same hsplit
  · rw [writeOne_refused hres]
    exact track_settingGroups _ _
  · rw [writeOne_refused hres]
    exact consistent_track hp ha _ _ hc
  intro hacc
  rw [hres] at hacc
  cases hacc

lemma settingKept_no_groups (hmgr : s.settingGroups.lookup domain = none)
    (hacc : (s.writeOne cfg w domain item v).2.1 = .ok ()) : SettingKept cfg s (.write w domain item v) := by
  obtain ⟨s₁, -, hsto, heq⟩ := writeOne_accepted_eq hacc
  rw [target_no_setting hsplit hmgr] at hsto heq
  obtain ⟨changes, -, rfl⟩ := store_eq_ok hsto
  have hstd : Stored domain attr s.model (putItem s.model domain item v) := stored_putItem hsplit
  unfold effect at heq
  apply settingKept_of_same hsplit
  · rw [heq, track_settingGroups]
  · have hstep : SettingsStep s { s with model := putItem s.model domain item v, changes := changes } :=
      .same rfl rfl
    rw [heq]
    refine consistent_track (hstep.placed hp) (hstep.apart ha) _ _ ?_
    intro d mgr hd
    have hlook : s.settingGroups.lookup d = some mgr := hd
    have hne : d ≠ domain := by
      rintro rfl
      rw [hmgr] at hlook
      cases hlook
    have hoth : mgr.domain ≠ domain := (hp.sound d mgr hlook).1 ▸ hne
    exact (hc d mgr hlook).within hstd.within hoth (ha.off hlook) fun _ _ => id
  · intro _
    exact hmgr

lemma settingKept_accepted (hmgr : s.settingGroups.lookup domain = some mgr)
    (hacc : (s.writeOne cfg w domain item v).2.1 = .ok ()) : SettingKept cfg s (.write w domain item v) := by
  obtain ⟨hok, changes, heq⟩ := accepted_setting hsplit hmgr hacc
  obtain ⟨hd, hsnd⟩ := hp.sound domain mgr hmgr
  have hstep : SettingsStep s (s.worked w domain item attr v changes mgr) := .write rfl hmgr rfl
  have hgrp : (s.writeOne cfg w domain item v).1.settingGroups = s.settingGroups.insert domain
      (mgr.onSgcbWrite w.stamp (putItem s.model domain item v) attr v).1 := by
    rw [heq, track_settingGroups]
    rfl
  have hat := isSgcbWrite_of_split hsplit
  refine ⟨?_, fun h => absurd h (not_edit hsplit), ?_, ?_, ?_⟩
  · rw [heq]
    exact consistent_track (hstep.placed hp) (hstep.apart ha) _ _ (consistent_worked hp ha hc hsplit hmgr hok changes)
  · intro hno d
    rw [hgrp]
    by_cases hdd : d = domain
    · subst hdd
      rw [lookup_insert, hmgr, map_some, map_some, settings_onSgcbWrite]
      rintro rfl
      simpa [hat] using hno
    · rw [lookup_insert_ne hdd]
  · intro d hdd
    rw [hgrp, lookup_insert_ne hdd]
  intro _ hcnf hv mgr' hmgr'
  obtain rfl := mem_unique hmgr hmgr'
  obtain rfl := mem_unique hat hcnf
  have he := hok.editing rfl hv
  have hstd : Stored domain "CnfEdit" s.model (putItem s.model domain item v) := stored_putItem hsplit
  have hwork : Within domain (mgr.Writes "CnfEdit") (putItem s.model domain item v)
      (mgr.onSgcbWrite w.stamp (putItem s.model domain item v) "CnfEdit" v).2 :=
    hd ▸ within_onSgcbWrite hsnd hok
  -- What the settings show is not changed by storing the flag or by recording the write.
  have hview : ∀ st ∈ mgr.settings, ∀ fc, fc.Exact → ¬ mgr.Writes "CnfEdit" fc st.sg →
      (s.writeOne cfg w domain item v).1.model.view st.sg fc = s.model.view st.sg fc := by
    intro st hm fc hx hnot
    have hoff := ha.off hmgr st hm
    have htrk := ha.untracked domain mgr hmgr st.sg (mem_map_of_mem hm)
    rw [heq, view_track _ _ (hstep.tracker ▸ htrk)]
    calc (s.worked w domain item "CnfEdit" v changes mgr).model.view st.sg fc
        = (putItem s.model domain item v).view st.sg fc := hwork.views st.sg fc hoff hx hnot
      _ = s.model.view st.sg fc := hstd.within.views st.sg fc hoff hx id
  refine ⟨_, by rw [hgrp, lookup_insert], ?_, ?_, ?_⟩
  · apply confirmed_onSgcbWrite hsnd hv he
    intro st hm r hr
    rw [hsnd.paired st hm r hr]
    exact hstd.within.views st.sg .se (ha.off hmgr st hm) exact_se id
  · intro st hm r hr
    rw [hsnd.paired st hm r hr]
    apply hview st hm .se exact_se
    rintro ⟨-, h | h⟩
    · exact absurd h.1 (by decide)
    · exact absurd h.2 (by decide)
  intro hne st hm
  apply hview st hm .sg exact_sg
  rintro ⟨-, h | h⟩
  · rcases h.2 with h | h
    · exact absurd h (by decide)
    · exact hne h.2
  · exact absurd h.1 (by decide)

end OneWrite

lemma settingsPlaced_new (opts : Options) (m : Model) : (new opts m).SettingsPlaced := by
  refine ⟨materialiseSgcbs_sound m opts.settingGroups, ?_⟩
  intro o ho heq
  obtain ⟨_, -, _, -, -, object, -, hkd, rfl⟩ := trackingObject_of_has ho
  have hnm : object.name = sgcbName := heq
  rw [hnm] at hkd
  exact absurd hkd (by decide)

lemma settingKept (hp : s.SettingsPlaced) (ha : s.SettingsApart) (hc : s.Consistent) {x : Service}
    (hx : s.SettingWrite x) (hspl : BlockSpelled x) : SettingKept cfg s x := by
  cases x with
  | write w domain item v =>
    rcases hx with ⟨da, haddr, hln⟩ | ⟨object, da, haddr⟩
    · obtain ⟨attr, hsplit⟩ := split_of_spelled haddr hln hspl
      rcases hres : (s.writeOne cfg w domain item v).2.1 with e | u
      · exact settingKept_refused hp ha hc hsplit hres
      cases hmgr : s.settingGroups.lookup domain with
      | none => exact settingKept_no_groups hp ha hc hsplit hmgr hres
      | some mgr => exact settingKept_accepted hp ha hc hsplit hmgr hres
    · exact settingKept_edit haddr hc
  | _ => exact hx.elim

end Inner

/-- Whatever a server is asked to do, the active group of a device is one of its groups, every setting has a value
in each of them, and no two settings are the same attribute. -/
theorem groups_sound (cfg : Config) (opts : Options) (m : Model) (services : List Service) :
    ((new opts m).run cfg services).settingGroups.All fun d mgr => mgr.domain = d ∧ mgr.Sound := by
  have hplaced : ((new opts m).run cfg services).SettingsPlaced :=
    Runs.invariant SettingsPlaced (fun _ x => (settingsStep_serve x).placed) (settingsPlaced_new opts m) services
  exact hplaced.sound

/-- The views and the control blocks show the setting groups after every sequence of writes of control
blocks and of settings under SE that spells the blocks' items, when they did before, and each write has
exactly its effect. The settings of the model are attributes of their own. -/
theorem setting_groups_consistent (cfg : Config) (opts : Options) (m : Model) (before writes : List Service)
    (s : Inner) (hs : s = (new opts m).run cfg before) (ha : (new opts m).SettingsApart) (hc : s.Consistent)
    (hw : Runs.Admitted (serve cfg) (fun s x => s.SettingWrite x ∧ BlockSpelled x) s writes) :
    (s.run cfg writes).Consistent ∧ ∀ x, (s.run cfg writes).SettingWrite x → BlockSpelled x →
      SettingKept cfg (s.run cfg writes) x := by
  have hbef : s.SettingsPlaced ∧ s.SettingsApart := by
    rw [hs]
    exact Runs.invariant (fun (s : Inner) => s.SettingsPlaced ∧ s.SettingsApart)
      (fun s x h => ⟨(settingsStep_serve x).placed h.1, (settingsStep_serve x).apart h.2⟩)
      ⟨settingsPlaced_new opts m, ha⟩ before
  have hrun : (s.run cfg writes).SettingsPlaced ∧ (s.run cfg writes).SettingsApart ∧
      (s.run cfg writes).Consistent := by
    refine Runs.induction_admitted (fun (s : Inner) => s.SettingsPlaced ∧ s.SettingsApart ∧ s.Consistent) ?_
      ⟨hbef.1, hbef.2, hc⟩ hw
    rintro s x ⟨hp, ha, hc⟩ ⟨hx, hspl⟩
    refine ⟨(settingsStep_serve x).placed hp, (settingsStep_serve x).apart ha, ?_⟩
    have hkp : SettingKept cfg s x := settingKept hp ha hc hx hspl
    cases x with
    | write w domain item v => exact hkp.1
    | _ => exact hx.elim
  refine ⟨hrun.2.2, ?_⟩
  intro x hx hspl
  exact settingKept hrun.1 hrun.2.1 hrun.2.2 hx hspl

def sameNumber : Value → Value → Bool
  | .integer a, .integer b => a == b
  | .unsigned a, .unsigned b => a == b
  | _, _ => false

lemma eq_of_sameNumber {a b : Value} (h : sameNumber a b) : a = b := by
  unfold sameNumber at h
  split at h
  · rw [eq_of_beq h]
  · rw [eq_of_beq h]
  · cases h

lemma path_ne_of_take {path : List String} {a b : String} (h : path.take 2 ≠ [a, b]) :
    ∀ rest, path ≠ a :: b :: rest := by
  rintro rest rfl
  exact h rfl

variable {s : Inner} {domain item : String} {v : Value} {w : WriteCtx}

lemma Inner.settingsApart_of_check
    (h1 : ∀ e ∈ s.settingGroups.entries, ∀ r ∈ e.2.refs, r.path.take 2 ≠ ["LLN0", sgcbName] ∧
      ∀ o ∈ s.tracker.objects, r.ld = o.ld → r.path.take 2 ≠ [o.ln, o.object])
    (h2 : ∀ e ∈ s.settingGroups.entries, ∀ e' ∈ s.settingGroups.entries, e.1 ≠ e'.1 →
      ∀ r ∈ e.2.refs, ∀ r' ∈ e'.2.refs, r.address ≠ r'.address) : s.SettingsApart := by
  constructor
  · intro d mgr hd r hr
    exact path_ne_of_take (h1 ⟨d, mgr⟩ (mem_lookup_iff.mp hd) r hr).1
  · intro d mgr hd r hr o ho hld
    exact path_ne_of_take ((h1 ⟨d, mgr⟩ (mem_lookup_iff.mp hd) r hr).2 o (Tracker.mem_objects ho) hld)
  · intro d d' mgr mgr' hne hd hd'
    exact h2 ⟨d, mgr⟩ (mem_lookup_iff.mp hd) ⟨d', mgr'⟩ (mem_lookup_iff.mp hd') hne

def showsNumber (m : Model) (domain name : String) (v : Value) : Bool :=
  ((m.object domain "LLN0" sgcbName).bind fun o => o.attr name).any fun a =>
    a.fc == .sp && a.value.any (sameNumber v)

lemma shows_of_showsNumber {m : Model} {name : String}
    (h : showsNumber m domain name v) : SgcbShows m domain name v := by
  obtain ⟨a, hat, ha⟩ := (any_eq_true _ _).mp h
  obtain ⟨o, ho, hoa⟩ := bind_eq_some_iff.mp hat
  rw [Bool.and_eq_true] at ha
  obtain ⟨u, hu, hsm⟩ := (any_eq_true _ _).mp ha.2
  rw [eq_of_sameNumber hsm]
  exact ⟨o, a, ho, hoa, eq_of_beq ha.1, hu⟩

lemma Inner.consistent_of_check (h : ∀ e ∈ s.settingGroups.entries,
    (∀ st ∈ e.2.settings, (s.model.view st.sg .sg).any (sameNumber (st.value e.2.actSg))) ∧
    showsNumber s.model e.2.domain "NumOfSG" (.uint8 e.2.numOfSg) ∧
    showsNumber s.model e.2.domain "ActSG" (.uint8 e.2.actSg) ∧
    showsNumber s.model e.2.domain "EditSG" (.uint8 e.2.editSg)) : s.Consistent := by
  intro d mgr hd
  obtain ⟨hsettings, hnum, hact, hedit⟩ := h ⟨d, mgr⟩ (mem_lookup_iff.mp hd)
  refine ⟨?_, shows_of_showsNumber hnum, shows_of_showsNumber hact, shows_of_showsNumber hedit⟩
  intro st hm
  obtain ⟨u, hu, hsm⟩ := (any_eq_true _ _).mp (hsettings st hm)
  rw [hu, eq_of_sameNumber hsm]

lemma protection_apart : protection.SettingsApart :=
  settingsApart_of_check (by decide +kernel) (by decide +kernel)

lemma protection_consistent : protection.Consistent := consistent_of_check (by decide +kernel)

def editAndActivate : List Service :=
  [ .write (writeBy 1) "PROT" "LLN0$SP$SGCB$EditSG" (.unsigned 2),
    .write (writeBy 2) "PROT" "PTOC1$SE$OpDlTmms$setVal" (.integer 500),
    .write (writeBy 1) "PROT" "LLN0$SP$SGCB$CnfEdit" (.boolean true),
    .write (writeBy 3) "PROT" "LLN0$SP$SGCB$ActSG" (.unsigned 2) ]

lemma Inner.settingWrite_block (hp : (writePath item).map (fun p => (p.1, p.2.1)) = some (sgcbName, .sp))
    (hda : ((s.model.node domain ((split '$' item).headD "")).bind fun ln =>
      resolveWrite ln item).map DataAttribute.fc = some .sp)
    (hln : (split '$' item).headD "" = "LLN0") : s.SettingWrite (.write w domain item v) := by
  obtain ⟨da, h⟩ := addresses_of_resolves hp hda
  exact .inl ⟨da, h, hln⟩

lemma Inner.blockSpelled_of_check (h : ((split '$' item)[1]?).map Fc.parseLenient = some .sp →
      (split '$' item)[1]? = some Fc.sp.asStr ∧ (split '$' item).length = 4) :
    BlockSpelled (.write w domain item v) := by
  intro f hf hfc
  obtain ⟨hsp, hlen⟩ := h (by rw [hf, map_some, hfc])
  exact ⟨hsp, fun _ => hlen⟩

lemma editAndActivate_admitted : Runs.Admitted (serve sampleConfig)
    (fun s x => s.SettingWrite x ∧ BlockSpelled x) protection editAndActivate := by
  refine ⟨⟨?_, ?_⟩, ⟨?_, ?_⟩, ⟨?_, ?_⟩, ⟨?_, ?_⟩, trivial⟩
  · exact settingWrite_block (by decide +kernel) (by decide +kernel) (by decide +kernel)
  · exact blockSpelled_of_check (by decide +kernel)
  · right
    exact ⟨"OpDlTmms", addresses_of_resolves (by decide +kernel) (by decide +kernel)⟩
  · exact blockSpelled_of_check (by decide +kernel)
  · exact settingWrite_block (by decide +kernel) (by decide +kernel) (by decide +kernel)
  · exact blockSpelled_of_check (by decide +kernel)
  · exact settingWrite_block (by decide +kernel) (by decide +kernel) (by decide +kernel)
  · exact blockSpelled_of_check (by decide +kernel)

/-- The confirmed edit is in effect, and everything shows it. -/
theorem confirmed_edit_active :
    ((protection.run sampleConfig editAndActivate).model.view ⟨"PROT/PTOC1.OpDlTmms.setVal"⟩ .sg).map
        Value.asI64 = some 500 ∧ (protection.run sampleConfig editAndActivate).Consistent := by
  refine ⟨by decide +kernel, ?_⟩
  exact (setting_groups_consistent sampleConfig {} protectionModel [] editAndActivate protection rfl
    protection_apart protection_consistent editAndActivate_admitted).1

def selectLowerCase : Service := .write (writeBy 1) "PROT" "LLN0$sp$SGCB$ActSG" (.unsigned 2)

/-- An accepted write under another spelling of the constraint: the block shows group 2 as active while group 1
is. -/
theorem active_group_misshown : protection.Consistent ∧
      protection.SettingWrite selectLowerCase ∧ (writeActSg "LLN0$sp$SGCB$ActSG" 2).2.1 = .ok () ∧
      ¬ (protection.serve sampleConfig selectLowerCase).Consistent := by
  refine ⟨protection_consistent, ?_, by decide +kernel, ?_⟩
  · exact settingWrite_block (by decide +kernel) (by decide +kernel) (by decide +kernel)
  intro hc
  have hchk : ((protection.serve sampleConfig selectLowerCase).settingGroups.lookup "PROT").map
      (fun mgr => (mgr.actSg, mgr.domain)) = some (1, "PROT") := by decide +kernel
  obtain ⟨mgr, hmgr, heq⟩ := map_eq_some_iff.mp hchk
  obtain ⟨hone, hdom⟩ := Prod.mk.inj heq
  obtain ⟨o, a, ho, ha, -, hv⟩ := (hc "PROT" mgr hmgr).actSg
  rw [hdom] at ho
  rw [hone] at hv
  have hshown : ((protection.serve sampleConfig selectLowerCase).attrOf "PROT" "LLN0" sgcbName "ActSG").map
      Value.asI64 = some 2 := by decide +kernel
  simp [attrOf, ho, ha, hv] at hshown
  exact absurd hshown (by decide)

end Iec61850.Server
