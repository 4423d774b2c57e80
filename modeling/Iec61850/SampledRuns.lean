import Iec61850.DataSetRuns

/-! Sampled-value control blocks over whole runs: their reservations, and the events that tell of them. -/
namespace Iec61850.Server
open Mms List SvcbState

def svFlags : List String := ["SvEna", "Resv"]

namespace SvcbState

def path (st : SvcbState) : String × String × String := (st.device, st.node, st.block.name)

def attr (m : Model) (st : SvcbState) (n : String) : Option Value :=
  (m.object st.device st.node st.block.name).bind (Inner.fcValue st.fc n)

lemma flag_eq (m : Model) (st : SvcbState) (n : String) : st.flag m n = ((st.attr m n).map Value.asBool).getD false := by
  unfold flag attr
  cases m.object st.device st.node st.block.name with
  | none => rfl
  | some o => rfl

lemma fc_cases (st : SvcbState) : st.fc = .us ∨ st.fc = .ms := by
  unfold fc
  cases st.unicast with
  | true => exact .inl rfl
  | false => exact .inr rfl

end SvcbState

namespace Inner
variable {s : Inner} {m m' m'' : Model} {domain item object : String} {v : Value}

/-- The flags of the blocks are the same in two models. -/
def FlagsSame (s : Inner) (m m' : Model) : Prop := s.svcbs.All fun _ st => ∀ n ∈ svFlags, st.attr m' n = st.attr m n

lemma FlagsSame.refl : FlagsSame s m m := fun _ _ _ _ _ => rfl

lemma FlagsSame.trans (h : FlagsSame s m m') (h' : FlagsSame s m' m'') : FlagsSame s m m'' := by
  intro key st hst n hn
  rw [h' key st hst n hn, h key st hst n hn]

lemma flagsSame_of_objects
    (h : s.svcbs.All fun _ st => m'.object st.device st.node st.block.name = m.object st.device st.node st.block.name) :
    FlagsSame s m m' := by
  intro key st hst n _
  rw [attr, attr, h key st hst]

variable {n attr : String} {st : SvcbState} {fc : Fc} {path : List String} {mgr : SettingGroupManager}

lemma attr_objectMut {d l o : String} {f : DataObject → DataObject} (hnm : ∀ x, (f x).name = x.name)
    (hval : st.path = (d, l, o) → ∀ x, fcValue st.fc n (f x) = fcValue st.fc n x) :
    st.attr (m.objectMut d l o f) n = st.attr m n := by
  unfold attr
  by_cases hpath : st.path = (d, l, o)
  · obtain ⟨rfl, rfl, rfl⟩ := triple_inj hpath
    rw [Model.object_objectMut_same m hnm]
    cases m.object st.device st.node st.block.name with
    | none => rfl
    | some x => exact hval rfl x
  · rw [Model.object_objectMut_other m hnm hpath]

section
variable (hpath : Access.writePath item = some (object, fc, path))
include hpath

lemma attr_putItem (hne : writeSite domain item = some st.path → fc = st.fc → path ≠ [n]) :
    st.attr (putItem m domain item v) n = st.attr m n := by
  rw [putItem, hpath]
  apply attr_objectMut (DataObject.writeBelowMut_name path)
  intro heq x
  apply fcValue_writeBelowMut
  apply hne
  rw [writeSite_of_path domain hpath, heq]

lemma flagsSame_putItem (hfc : fc ∉ [Fc.us, Fc.ms]) : FlagsSame s m (putItem m domain item v) := by
  intro key st _ n _
  apply attr_putItem hpath
  intro _ heq
  rw [heq] at hfc
  rcases st.fc_cases with h | h
  · exact absurd (by rw [h]; decide) hfc
  · exact absurd (by rw [h]; decide) hfc

end

lemma flagsSame_setAttribute {r : ObjectReference} (hfc : fc ∈ [Fc.st, Fc.sg, Fc.se]) :
    FlagsSame s m (m.setAttribute r fc v) := by
  have hx : fc.Exact ∧ fc ≠ .us ∧ fc ≠ .ms := by
    simp only [mem_cons, not_mem_nil, or_false] at hfc
    rcases hfc with rfl | rfl | rfl <;> exact ⟨⟨by decide, by decide⟩, by decide, by decide⟩
  intro key st _ n _
  unfold Model.setAttribute
  split
  next ln object path _ =>
    apply attr_objectMut (DataObject.attributeMut_name path)
    intro _ x
    apply fcValue_attributeMut hx.1
    rcases st.fc_cases with h | h
    · rw [h]
      exact hx.2.1
    · rw [h]
      exact hx.2.2
  · rfl

lemma flagsSame_setSgcb (hat : attr ∉ svFlags) : FlagsSame s m (mgr.setSgcb m attr v) := by
  intro key st _ n hn
  apply attr_objectMut
  · intro x
    rfl
  intro _ x
  apply congrArg (Option.bind · DataAttribute.value)
  apply FirstMatch.find_update_other
  intro a ha
  have hno : (a.name == n && a.fc == st.fc) = false := by
    have hne : a.name ≠ n := by
      rintro rfl
      rw [eq_of_beq ha] at hn
      exact hat hn
    rw [beq_eq_false_iff_ne.mpr hne, Bool.false_and]
  exact ⟨hno, hno⟩

lemma flagsSame_onSgcbWrite {now : Value} : FlagsSame s m (mgr.onSgcbWrite now m attr v).2 :=
  onSgcbWrite_rule .refl
    (fun _ n _ hn h => h.trans (flagsSame_setSgcb ((by decide : ∀ n ∈ _, n ∉ svFlags) n hn)))
    fun _ _ _ _ hfc h => h.trans (flagsSame_setAttribute hfc)

/-- The sampled-value blocks have plain names, and no report control block and no recording of writes works in
their places. -/
@[mk_iff]
structure SvApart (s : Inner) : Prop where
  plain : s.svcbs.All fun _ st => '\x00' ∉ st.device.toList ∧
    '\x00' ∉ (st.node ++ "$" ++ st.fc.asStr ++ "$" ++ st.block.name).toList
  reports : s.svcbs.All fun _ st => ∀ b ∈ s.blocks, st.path ≠ b.rs.path
  untracked : s.svcbs.All fun _ st => ∀ o ∈ s.tracker.objects, st.path ≠ (o.ld, o.ln, o.object)

instance (s : Inner) : Decidable s.SvApart := decidable_of_iff' _ (svApart_iff s)

/-- The sampled-value blocks are registered under the names of their places. -/
structure SvPlaced (s : Inner) : Prop extends SvApart s where
  keys : s.svcbs.All SampledAt

/-- What a step that is none of a sampled-value block's leaves. -/
structure SvKept (s s' : Inner) : Prop where
  svcbs : s'.svcbs = s.svcbs
  flags : FlagsSame s s.model s'.model
  conns : ∀ conn, (s.conns.lookup conn).isSome = true → (s'.conns.lookup conn).isSome = true
  rs : s'.blocks.map Block.rs = s.blocks.map Block.rs
  tracker : s'.tracker = s.tracker

variable {s' t : Inner} {w : WriteCtx} {key : String} {cfg : Config}

lemma SvKept.refl : SvKept s s := ⟨rfl, .refl, fun _ h => h, rfl, rfl⟩

lemma SvKept.trans (h : SvKept s s') (h' : SvKept s' t) : SvKept s t := by
  refine ⟨h'.svcbs.trans h.svcbs, ?_, fun conn hc => h'.conns conn (h.conns conn hc), h'.rs.trans h.rs,
    h'.tracker.trans h.tracker⟩
  have hflg := h'.flags
  unfold FlagsSame at hflg
  rw [h.svcbs] at hflg
  exact h.flags.trans hflg

lemma SvKept.of_model (hs : s'.svcbs = s.svcbs) (hm : FlagsSame s s.model s'.model) (hc : s'.conns = s.conns)
    (hb : s'.blocks = s.blocks) (ht : s'.tracker = s.tracker) : SvKept s s' :=
  ⟨hs, hm, fun _ h => hc ▸ h, by rw [hb], ht⟩

lemma SvPlaced.of_places (h : s.SvPlaced)
    (hs : s'.svcbs.All fun key st' => ∃ st, s.svcbs.lookup key = some st ∧ st' = { st with owner := st'.owner })
    (hb : s'.blocks.map Block.rs = s.blocks.map Block.rs) (ht : s'.tracker = s.tracker) : s'.SvPlaced := by
  refine ⟨⟨?_, ?_, ?_⟩, ?_⟩
  · intro key st' hst'
    obtain ⟨st, hst, heq⟩ := hs key st' hst'
    rw [heq]
    exact h.plain key st hst
  · intro key st' hst' b hb'
    obtain ⟨st, hst, heq⟩ := hs key st' hst'
    have hm : b.rs ∈ s.blocks.map Block.rs := hb ▸ mem_map_of_mem hb'
    obtain ⟨b0, hb0, hrs⟩ := mem_map.mp hm
    rw [heq, ← hrs]
    exact h.reports key st hst b0 hb0
  · intro key st' hst' o ho
    obtain ⟨st, hst, heq⟩ := hs key st' hst'
    rw [ht] at ho
    rw [heq]
    exact h.untracked key st hst o ho
  · intro key st' hst'
    obtain ⟨st, hst, heq⟩ := hs key st' hst'
    rw [heq]
    exact h.keys key st hst

lemma SvKept.placed (h : SvKept s s') (hs : s.SvPlaced) : s'.SvPlaced := by
  apply hs.of_places _ h.rs h.tracker
  rw [h.svcbs]
  exact fun key st hst => ⟨st, hst, rfl⟩

lemma svKept_track (hs : s.SvPlaced) (domain item : String) (controlBlock : Bool)
    (res : Except DataAccessError Unit) : SvKept s (s.track w domain item v controlBlock res) := by
  have hmodel : FlagsSame s s.model (s.track w domain item v controlBlock res).model := by
    apply flagsSame_of_objects
    intro key st hst
    apply object_track_of_untracked
    intro o ho
    exact hs.untracked key st hst o (Tracker.mem_objects ho)
  obtain ⟨m, changes, -, heq⟩ := onlyTracked_track controlBlock res
  rw [heq] at hmodel ⊢
  exact .of_model rfl hmodel rfl rfl rfl

variable {f : RcbState → Work → Work} {st : State}

section
variable (hs : s.SvPlaced)
include hs

lemma engine_onBlocks (hb : st.blocks = s.blocks) (hf : ∀ rs w, Frame servedAttrs rs w (f rs w)) :
    FlagsSame s st.model (st.onBlocks f).model ∧
      ∀ conn, ((st.onBlocks f).conns.lookup conn).isSome = (st.conns.lookup conn).isSome := by
  refine runBlocks_relates (Q := fun g g' => FlagsSame s g.model g'.model ∧
    ∀ conn, (g'.conns.lookup conn).isSome = (g.conns.lookup conn).isSome) (fun g => ⟨.refl, fun _ => rfl⟩) ?_
    st.blocks ?_ st.toEngine
  · intro g g' g'' h h'
    exact ⟨h.1.trans h'.1, fun conn => (h'.2 conn).trans (h.2 conn)⟩
  intro b hm g
  have hfr := hf b.rs (b.work g)
  refine ⟨?_, hfr.conns⟩
  apply flagsSame_of_objects
  intro key sv hsv
  exact hfr.model.object_apart (hs.reports key sv hsv b (hb ▸ hm))

lemma svKept_onBlocks (hb : st.blocks = s.blocks) (hm : st.model = s.model)
    (hc : st.conns = s.conns) (hf : ∀ rs w, Frame servedAttrs rs w (f rs w)) :
    SvKept s { s with toState := st.onBlocks f } := by
  obtain ⟨hflg, hconns⟩ := engine_onBlocks hs hb hf
  rw [hm] at hflg
  refine ⟨rfl, hflg, ?_, ?_, rfl⟩
  · intro conn hconn
    rw [hconns, hc]
    exact hconn
  · exact (onBlocks_rs _ _).trans (by rw [hb])

lemma svKept_onBlock (key : String) (hb : st.blocks = s.blocks) (hm : st.model = s.model)
    (hc : st.conns = s.conns) (hf : ∀ rs w, Frame servedAttrs rs w (f rs w)) :
    SvKept s { s with toState := st.onBlock key f } := by
  refine svKept_onBlocks hs hb hm hc ?_
  intro rs w
  split
  · exact hf rs w
  · exact .refl

lemma svKept_background {x : Step} (hx : x.background) : SvKept s { s with toState := step cfg s.toState x } := by
  rcases background_cases cfg s.toState hx with ⟨hb, ha⟩ | ⟨st, f, heq, hb, hm, hc, hf, -⟩
  · refine ⟨rfl, ?_, ha.conns, by rw [hb], rfl⟩
    rw [ha.model]
    exact .refl
  · rw [heq]
    exact svKept_onBlocks hs hb hm hc hf

end

end Inner

open Inner Option AList Table

namespace Inner
variable {s s' : Inner} {cfg : Config} {w : WriteCtx} {domain item object key attr : String} {v : Value} {fc : Fc}
  {path : List String} {conn : ConnId} {st : SvcbState} {blocks : Table String SvcbState}

lemma writePath_split {ln f o : String} {rest : List String} (hsp : Text.split '$' item = ln :: f :: o :: rest)
    (hpath : Access.writePath item = some (object, fc, path)) : o = object ∧ Fc.parseLenient f = fc ∧ rest = path := by
  unfold Access.writePath at hpath
  rw [hsp] at hpath
  cases rest with
  | nil => cases hpath
  | cons first rest => simpa using hpath

lemma fc_of_target (ht : ∀ key attr, s.target domain item ≠ .sampled key attr) (hpln : s.target domain item ≠ .plain)
    (hpath : Access.writePath item = some (object, fc, path)) : fc ∉ [Fc.us, Fc.ms] := by
  cases htgt : s.target domain item with
  | report key attr =>
    have hkey : rcbKey domain item = some (key, attr) := addressed_of_target htgt
    unfold rcbKey at hkey
    split at hkey
    next ln f o rest hsp =>
      obtain ⟨-, rfl, -⟩ := writePath_split hsp hpath
      split at hkey
      · next hf => rcases hf with rfl | rfl <;> decide
      · cases hkey
    · cases hkey
  | setting attr =>
    obtain ⟨-, rfl, -⟩ := writePath_split (isSgcbWrite_eq_some (addressed_of_target htgt)) hpath
    decide
  | log key attr =>
    have hkey : lcbKey s.lcbs domain item = some (key, attr) := addressed_of_target htgt
    unfold lcbKey at hkey
    split at hkey
    next ln f o rest hsp =>
      obtain ⟨-, rfl, -⟩ := writePath_split hsp hpath
      split at hkey
      next hf =>
        rw [hf]
        decide
      · cases hkey
    · cases hkey
  | sampled key attr => exact absurd htgt (ht key attr)
  | plain => exact absurd htgt hpln

lemma svcbKey_own (hs : s.SvPlaced) (h : svcbKey s.svcbs domain item = some (key, attr)) :
    ∃ st rest, s.svcbs.lookup key = some st ∧ domain = st.device ∧ attr = rest.headD "" ∧
      Text.split '$' item = st.node :: st.fc.asStr :: st.block.name :: rest := by
  unfold svcbKey at h
  split at h
  next ln f name rest hsp =>
    split at h
    next hf =>
      dsimp only at h
      split at h
      next hsome =>
        obtain ⟨hkey, hattr⟩ := Prod.mk.inj (some.inj h)
        rw [hkey] at hsome
        obtain ⟨st, hst⟩ := isSome_iff_exists.mp hsome
        have hat : svcbKeyOf domain (ln ++ "$" ++ f ++ "$" ++ name) = _ := hkey.trans (hs.keys key st hst)
        obtain ⟨hpln, hitem⟩ := hs.plain key st hst
        obtain ⟨hd, hi⟩ := Text.append_inj rfl hat hpln hitem
        have hfc : '$' ∉ st.fc.asStr.toList := by
          rcases st.fc_cases with hfc | hfc <;> rw [hfc] <;> decide
        exact ⟨st, rest, hst, hd, hattr.symm, split_of_joined hsp hi hfc⟩
      · cases h
    · cases h
  · cases h

variable {key' n : String} {st' : SvcbState} {s₁ : Inner} {x : Service} {m : Model}

lemma SvPlaced.key_eq (hs : s.SvPlaced)
    (h : s.svcbs.lookup key = some st) (h' : s.svcbs.lookup key' = some st') (hpath : st'.path = st.path)
    (hfc : st'.fc = st.fc) : key' = key := by
  obtain ⟨hd, hl, hn⟩ := triple_inj hpath
  have hk : key = _ := hs.keys key st h
  have hk' : key' = _ := hs.keys key' st' h'
  rw [hk, hk', hd, hl, hn, hfc]

lemma parseLenient_asStr (st : SvcbState) : Fc.parseLenient st.fc.asStr = st.fc := by
  rcases st.fc_cases with h | h <;> rw [h] <;> decide

lemma svKept_effect {old : Inner} (hs : s₁.SvPlaced) {t : CbTarget} (ht : ∀ key attr, t ≠ .sampled key attr) :
    SvKept s₁ (effect w domain v old s₁ t).1 := by
  cases t with
  | report key attr => exact svKept_onBlock hs key rfl rfl rfl fun _ _ => onRcbWrite_frame
  | setting attr =>
    dsimp only [effect]
    split
    · exact .refl
    · exact .of_model rfl flagsSame_onSgcbWrite rfl rfl rfl
  | log key attr => exact .of_model rfl .refl rfl rfl rfl
  | sampled key attr => exact absurd rfl (ht key attr)
  | plain => exact .refl

lemma svKept_writeOne (hs : s.SvPlaced) (ht : ∀ key attr, s.target domain item ≠ .sampled key attr)
    (hpln : s.target domain item = .plain → s.svcbs.All fun _ st => st.fc ∉ writableFcs cfg.writable ∨
      writeSite domain item ≠ some st.path ∨ (Access.writePath item).map (fun p => p.2.1) ≠ some st.fc) :
    SvKept s (s.writeOne cfg w domain item v).1 := by
  refine writeOne_rule .refl (fun _ _ _ h => h.trans (svKept_track (h.placed hs) domain item _ _)) fun s₁ _ hsto => ?_
  obtain ⟨changes, ⟨ln, da, -, hda, hpm, -⟩, hs1⟩ := store_eq_ok hsto
  obtain ⟨⟨object, fc, path⟩, hpath, -⟩ := bind_eq_some_iff.mp hda
  have hflg : FlagsSame s s.model (putItem s.model domain item v) := by
    by_cases hpl : s.target domain item = .plain
    · rw [hpl] at hpm
      have hw : da.fc ∈ writableFcs cfg.writable := mem_writable_of_permitted (hpm rfl)
      intro key st hst n hn
      apply attr_putItem hpath
      rintro hsite rfl rfl
      rcases hpln hpl key st hst with hno | hno | hno
      · rw [← fc_of_single hda hpath] at hno
        exact hno hw
      · exact hno hsite
      · rw [hpath] at hno
        exact hno rfl
    · exact flagsSame_putItem hpath (fc_of_target ht hpl hpath)
  have hkp : SvKept s s₁ := by
    rw [hs1]
    exact .of_model rfl hflg rfl rfl rfl
  exact hkp.trans (svKept_effect (hkp.placed hs) ht)

lemma svKept_define (domain list : String) (items : List (String × String)) :
    SvKept s { s with model := defineNvl s.model domain list items } := by
  refine .of_model rfl ?_ rfl rfl rfl
  apply flagsSame_of_objects
  intro key st _
  exact object_defineNvl _ _ _

lemma svKept_delete (render : Render) (domain list : String) : SvKept s (s.deleteDataset render domain list) := by
  have hflg : FlagsSame s s.model (s.deleteDataset render domain list).model :=
    flagsSame_of_objects fun _ _ _ => object_deleteDataset _ _ _
  rcases deleteDataset_cases render domain list s with h | ⟨ln, name, y, -, -, -, h⟩
  · rw [h]
    exact .refl
  · rw [h] at hflg ⊢
    exact .of_model rfl hflg rfl rfl rfl

lemma svKept_operate (conn : ConnId) (reference : ObjectReference) (ctlVal : Value) :
    SvKept s (s.serve cfg (.operate conn reference ctlVal)) := by
  refine .of_model rfl ?_ rfl rfl rfl
  rcases serve_operate_model cfg s conn reference ctlVal with h | ⟨v, h⟩
  · rw [h]
    exact .refl
  · rw [h]
    exact flagsSame_setAttribute (by decide)

/-- The reservations in the model are those of the registry, and are held by associations that are
there. -/
structure Reserved (s : Inner) : Prop where
  resv : s.svcbs.All fun _ st => st.unicast = true → (st.flag s.model "Resv" = true ↔ st.owner.isSome = true)
  multicast : s.svcbs.All fun _ st => st.unicast = false → st.owner = none
  live : s.svcbs.All fun _ st => ∀ conn, st.owner = some conn → (s.conns.lookup conn).isSome = true

lemma SvKept.flag_eq (h : SvKept s s') (hst : s.svcbs.lookup key = some st)
    (hn : n ∈ svFlags) : st.flag s'.model n = st.flag s.model n := by
  rw [st.flag_eq, st.flag_eq, h.flags key st hst n hn]

lemma Reserved.kept (h : s.Reserved) (hk : SvKept s s') : s'.Reserved := by
  refine ⟨?_, ?_, ?_⟩
  · rw [hk.svcbs]
    intro key st hst hu
    rw [hk.flag_eq hst (by decide)]
    exact h.resv key st hst hu
  · rw [hk.svcbs]
    exact h.multicast
  rw [hk.svcbs]
  intro key st hst conn hconn
  exact hk.conns conn (h.live key st hst conn hconn)

lemma checked_sampled (hst : blocks.lookup key = some st) (h : checkSvcbWrite m blocks key attr v conn = .ok ()) :
    (st.owner = none ∨ st.owner = some conn) ∧ (attr = "SvEna" ∨ (attr = "Resv" ∧ st.unicast)) := by
  unfold checkSvcbWrite at h
  rw [hst] at h
  dsimp only at h
  split at h
  · cases h
  next how =>
  refine ⟨?_, ?_⟩
  · cases ho : st.owner with
    | none => exact .inl rfl
    | some o =>
      rw [ho] at how
      right
      simpa using how
  split at h
  · next hat => exact hat
  split at h
  · cases h
  · cases h

lemma onSvcbWrite_cases (m : Model) (conn : ConnId) (old : Bool)
    (hst : blocks.lookup key = some st) (hat : attr = "SvEna" ∨ (attr = "Resv" ∧ st.unicast)) :
    (attr = "SvEna" ∧ (onSvcbWrite m key attr old conn blocks).1 = blocks) ∨
      (attr = "Resv" ∧ st.unicast ∧ (onSvcbWrite m key attr old conn blocks).1 =
        blocks.insert key { st with owner := if st.flag m "Resv" then some conn else none }) := by
  unfold onSvcbWrite
  rw [hst]
  rcases hat with rfl | ⟨rfl, hu⟩
  · exact .inl ⟨rfl, rfl⟩
  · exact .inr ⟨rfl, hu, rfl⟩

lemma flag_sampled (hs : s.SvPlaced) (ht : s.target domain item = .sampled key attr)
    (hsto : s.store cfg w domain item v true = .ok s₁)
    (hst' : s.svcbs.lookup key' = some st') (hne : key' = key → attr ≠ n) :
    st'.flag s₁.model n = st'.flag s.model n := by
  obtain ⟨st, rest, hst, hd, hat, hsp⟩ := svcbKey_own hs (addressed_of_target ht)
  obtain ⟨changes, ⟨ln, da, -, hda, -⟩, rfl⟩ := store_eq_ok hsto
  obtain ⟨⟨object, fc, path⟩, hpath, -⟩ := bind_eq_some_iff.mp hda
  obtain ⟨rfl, hfc, rfl⟩ := writePath_split hsp hpath
  rw [parseLenient_asStr] at hfc
  rw [st'.flag_eq, st'.flag_eq, attr_putItem hpath]
  intro hsite hfc' hrs
  apply hne
  · apply hs.key_eq hst hst' _ (hfc'.symm.trans hfc.symm)
    have hown : writeSite domain item = some st.path := by
      rw [writeSite, hpath, hsp, hd]
      rfl
    exact mem_unique hsite hown
  · rw [hat, hrs]
    rfl

lemma places_onSvcbWrite {old : Bool} : (onSvcbWrite m key attr old conn blocks).1.All fun key' st' =>
      ∃ st, blocks.lookup key' = some st ∧ st' = { st with owner := st'.owner } := by
  have hall : blocks.All fun key' st' => ∃ st, blocks.lookup key' = some st ∧ st' = { st with owner := st'.owner } :=
    fun key' st' hst' => ⟨st', hst', rfl⟩
  unfold onSvcbWrite
  split
  · exact hall
  next st hst =>
  split
  · exact hall
  split
  · intro key' st' hst'
    exact hall.insert ⟨st, hst, rfl⟩ key' st' hst'
  · exact hall

lemma placed_sampled (hs : s.SvPlaced) (hsto : s.store cfg w domain item v true = .ok s₁) :
    (effect w domain v s s₁ (.sampled key attr)).1.SvPlaced := by
  obtain ⟨changes, -, rfl⟩ := store_eq_ok hsto
  exact hs.of_places places_onSvcbWrite rfl rfl

lemma reserved_sampled (hs : s.SvPlaced) (h : s.Reserved) (ht : s.target domain item = .sampled key attr)
    (hlv : (s.conns.lookup w.conn).isSome) (hchk : s.check w domain v (.sampled key attr) = .ok ())
    (hsto : s.store cfg w domain item v true = .ok s₁) :
    (effect w domain v s s₁ (.sampled key attr)).1.Reserved := by
  obtain ⟨st, -, hst, -, -, -⟩ := svcbKey_own hs (addressed_of_target ht)
  obtain ⟨-, hflag⟩ := checked_sampled hst hchk
  have hoth {key' : String} {st' : SvcbState} (hst' : s.svcbs.lookup key' = some st') {n : String}
      (hne : key' = key → attr ≠ n) : st'.flag s₁.model n = st'.flag s.model n := flag_sampled hs ht hsto hst' hne
  obtain ⟨changes, -, rfl⟩ := store_eq_ok hsto
  dsimp only [effect]
  rcases onSvcbWrite_cases (putItem s.model domain item v) w.conn (svcbBefore s.model s.svcbs key attr) hst hflag with
    ⟨rfl, hblocks⟩ | ⟨rfl, hu, hblocks⟩
  · rw [hblocks]
    refine ⟨?_, h.multicast, h.live⟩
    intro key' st' hst' hu'
    have hsm : st'.flag (putItem s.model domain item v) "Resv" = st'.flag s.model "Resv" :=
      hoth hst' fun _ => by decide
    rw [hsm]
    exact h.resv key' st' hst' hu'
  rw [hblocks]
  -- The block is owned by the writer exactly if the flag is set now.
  refine ⟨?_, ?_, ?_⟩
  · intro key' st' hst' hu'
    rcases lookup_insert_eq_some.mp hst' with ⟨-, rfl⟩ | ⟨hne, hst'⟩
    · show st.flag (putItem s.model domain item v) "Resv" ↔ _
      cases st.flag (putItem s.model domain item v) "Resv" <;> simp
    have hsm : st'.flag (putItem s.model domain item v) "Resv" = st'.flag s.model "Resv" :=
      hoth hst' fun heq => absurd heq hne
    rw [hsm]
    exact h.resv key' st' hst' hu'
  · intro key' st' hst' hu'
    rcases lookup_insert_eq_some.mp hst' with ⟨-, rfl⟩ | ⟨-, hst'⟩
    · rw [show st.unicast = false from hu'] at hu
      cases hu
    · exact h.multicast key' st' hst' hu'
  intro key' st' hst' conn hconn
  rcases lookup_insert_eq_some.mp hst' with ⟨-, rfl⟩ | ⟨-, hst'⟩
  · dsimp only at hconn
    split at hconn
    · rw [← some.inj hconn]
      exact hlv
    · cases hconn
  · exact h.live key' st' hst' conn hconn

variable {name : String} {sc : ServerConn}

lemma attr_setFlag_other (on : Bool) (hne : st'.path = st.path → st'.fc = st.fc → n ≠ name) :
    st'.attr (st.setFlag m name on) n = st'.attr m n := by
  refine attr_objectMut ?_ ?_
  · intro x
    rfl
  intro hpath x
  apply congrArg (bind · DataAttribute.value)
  apply FirstMatch.find_update_other
  intro a ha
  obtain ⟨hnm, hfc⟩ := (Bool.and_eq_true _ _).mp ha
  have hno : (a.name == n && a.fc == st'.fc) = false := by
    by_cases hsm : st'.fc = st.fc
    · have hn : a.name ≠ n := by
        rw [eq_of_beq hnm]
        exact fun heq => hne hpath hsm heq.symm
      rw [beq_eq_false_iff_ne.mpr hn, Bool.false_and]
    have hf : a.fc ≠ st'.fc := by
      rw [eq_of_beq hfc]
      exact fun heq => hsm heq.symm
    rw [beq_eq_false_iff_ne.mpr hf, Bool.and_false]
  exact ⟨hno, hno⟩

lemma object_setFlag (on : Bool) : (st.setFlag m name on).object st.device st.node st.block.name =
    (m.object st.device st.node st.block.name).map fun o => o.onAttribute (fun a => a.name == name && a.fc == st.fc)
      fun a => { a with value := some (.boolean on) } :=
  Model.object_objectMut_same m fun _ => rfl

lemma flag_setFlag_same (hpath : st'.path = st.path) (hfc : st'.fc = st.fc) :
    st'.flag (st.setFlag m name false) name = false := by
  obtain ⟨hd, hl, hn⟩ := triple_inj hpath
  rw [st'.flag_eq, attr, hd, hl, hn, object_setFlag]
  rcases m.object st.device st.node st.block.name with _ | o
  · rfl
  have hfind := FirstMatch.find_update_same (p := fun a : DataAttribute => a.name == name && a.fc == st.fc)
    (f := fun a => { a with value := some (.boolean false) }) (fun _ h => h) o.attributes
  rw [map_some, bind_some, fcValue, hfc, DataObject.onAttribute, hfind]
  cases o.attributes.find? fun a => a.name == name && a.fc == st.fc with
  | none => rfl
  | some a => rfl

lemma flag_releaseConn (done : Model × Table String SvcbState) (key : String) (hn : n ∈ svFlags) :
    st'.flag (releaseConn conn done key st).1 n =
      if st'.path = st.path ∧ st'.fc = st.fc ∧ st.owner = some conn then false else st'.flag done.1 n := by
  unfold releaseConn
  split
  · next how => rw [if_neg fun h => how h.2.2]
  next how =>
  rw [ne_eq, not_not] at how
  by_cases hsm : st'.path = st.path ∧ st'.fc = st.fc
  · rw [if_pos ⟨hsm.1, hsm.2, how⟩]
    have hclear {name : String} {m : Model} :
        st'.flag (({ st with owner := none } : SvcbState).setFlag m name false) name = false :=
      flag_setFlag_same hsm.1 hsm.2
    simp only [svFlags, mem_cons, not_mem_nil, or_false] at hn
    rcases hn with rfl | rfl
    · exact hclear
    · rw [st'.flag_eq, attr_setFlag_other false (fun _ _ => by decide), ← st'.flag_eq]
      exact hclear
  · have hno (hp : st'.path = ({ st with owner := none } : SvcbState).path)
        (hf : st'.fc = ({ st with owner := none } : SvcbState).fc) {P : Prop} : P := absurd ⟨hp, hf⟩ hsm
    rw [if_neg fun h => hsm ⟨h.1, h.2.1⟩, st'.flag_eq, attr_setFlag_other false fun hp hf => hno hp hf,
      attr_setFlag_other false fun hp hf => hno hp hf, ← st'.flag_eq]

lemma flag_release (conn : ConnId) (st' : SvcbState) (es : List (Sigma fun _ : String => SvcbState))
    (done : Model × Table String SvcbState) (hn : n ∈ svFlags) :
    st'.flag (es.foldl (fun done e => releaseConn conn done e.1 e.2) done).1 n =
      if ∃ e ∈ es, st'.path = e.2.path ∧ st'.fc = e.2.fc ∧ e.2.owner = some conn then false else st'.flag done.1 n := by
  induction es generalizing done with
  | nil => simp
  | cons e rest ih =>
    rw [foldl_cons, ih, flag_releaseConn done e.1 hn]
    simp only [exists_mem_cons_iff]
    by_cases hfst : st'.path = e.2.path ∧ st'.fc = e.2.fc ∧ e.2.owner = some conn
    · simp [hfst]
    · simp only [hfst, if_false, false_or]

lemma owner_release (es : List (Sigma fun _ : String => SvcbState)) (done : Model × Table String SvcbState)
    (h : done.2.All fun key st => st.owner = some conn → (⟨key, st⟩ : Sigma fun _ : String => SvcbState) ∈ es) :
    (es.foldl (fun done e => releaseConn conn done e.1 e.2) done).2.All fun _ st => st.owner ≠ some conn := by
  induction es generalizing done with
  | nil =>
    intro key st hst how
    cases h key st hst how
  | cons e rest ih =>
    rw [foldl_cons]
    apply ih
    unfold releaseConn
    split
    next hno =>
      intro key st hst how
      rcases mem_cons.mp (h key st hst how) with rfl | hm
      · exact absurd how hno
      · exact hm
    · intro key st hst how
      rcases lookup_insert_eq_some.mp hst with ⟨-, rfl⟩ | ⟨heq, hst⟩
      · cases how
      rcases mem_cons.mp (h key st hst how) with rfl | hm
      · exact absurd rfl heq
      · exact hm

lemma blocks_release (conn : ConnId) (m : Model) (blocks : Table String SvcbState) :
    (releaseSvcbs conn m blocks).2.All fun key st' => ∃ st, blocks.lookup key = some st ∧
      (st' = st ∨ st.owner = some conn ∧ st' = { st with owner := none }) := by
  refine foldlRecOn (motive := fun (done : Model × Table String SvcbState) => done.2.All fun key st' =>
    ∃ st, blocks.lookup key = some st ∧ (st' = st ∨ st.owner = some conn ∧ st' = { st with owner := none }))
    (inKeyOrder blocks) _ (fun key st hst => ⟨st, hst, .inl rfl⟩) ?_
  intro done hdone e he
  unfold releaseConn
  split
  · exact hdone
  next how =>
    rw [ne_eq, not_not] at how
    exact hdone.insert ⟨e.2, mem_lookup_iff.mpr (mem_inKeyOrder.mp he), .inr ⟨how, rfl⟩⟩

/-- A write comes from an open association, and one that is stored as it is leaves the sampled value blocks alone. -/
def SvChecked (cfg : Config) (s : Inner) : Service → Prop
  | .write w domain item _ => (s.conns.lookup w.conn).isSome = true ∧ (s.target domain item = .plain →
      s.svcbs.All fun _ st => st.fc ∉ writableFcs cfg.writable ∨ writeSite domain item ≠ some st.path ∨
        (Access.writePath item).map (fun p => p.2.1) ≠ some st.fc)
  | _ => True

instance (cfg : Config) (s : Inner) (x : Service) : Decidable (s.SvChecked cfg x) := by
  cases x <;> unfold SvChecked <;> infer_instance

def SvRespected (cfg : Config) (s : Inner) : Service → Prop
  | .write w domain item v => ∀ key st name, s.svcbs.lookup key = some st → writeSite domain item = some st.path →
      Access.writePath item = some (st.block.name, st.fc, [name]) →
      (s.writeOne cfg w domain item v).2.1 = .ok () → st.owner = none ∨ st.owner = some w.conn
  | .endAssociation conn now => ∀ sc, s.conns.lookup conn = some sc → sc.inRequest = false →
      ((s.endAssociation cfg conn now).svcbs.All fun _ st => st.owner ≠ some conn) ∧
      s.svcbs.All fun _ st => st.owner = some conn → st.flag (s.endAssociation cfg conn now).model "SvEna" = false
  | _ => True

lemma reserved_writeOne (hs : s.SvPlaced) (h : s.Reserved) (hlv : (s.conns.lookup w.conn).isSome)
    (ht : s.target domain item = .sampled key attr) :
    (s.writeOne cfg w domain item v).1.Reserved ∧ (s.writeOne cfg w domain item v).1.SvPlaced := by
  refine writeOne_rule ⟨h, hs⟩ (fun t controlBlock res ht => ?_) fun s₁ hchk hsto => ?_
  · have hkp := svKept_track (w := w) (v := v) ht.2 domain item controlBlock res
    exact ⟨ht.1.kept hkp, hkp.placed ht.2⟩
  · rw [ht] at hchk hsto ⊢
    exact ⟨reserved_sampled hs h ht hlv hchk hsto, placed_sampled hs hsto⟩

lemma ended (cfg : Config) (now : SystemTime) (hs : s.SvPlaced)
    (hsc : s.conns.lookup conn = some sc) (hidle : sc.inRequest = false) :
    ∃ st : State, s.endAssociation cfg conn now = { s with
        toState := { st with model := (releaseSvcbs conn st.model s.svcbs).1 }
        svcbs := (releaseSvcbs conn st.model s.svcbs).2
        selections := s.selections.releaseConn conn } ∧
      FlagsSame s s.model st.model ∧ st.blocks.map Block.rs = s.blocks.map Block.rs ∧
      ∀ other, other ≠ conn → (s.conns.lookup other).isSome → (st.conns.lookup other).isSome := by
  refine ⟨step cfg s.toState (.endAssociation conn now), ?_, ?_⟩
  · unfold endAssociation
    simp only [hsc, hidle]
    rfl
  have hstep : step cfg s.toState (.endAssociation conn now) =
      ({ s.toState with conns := s.conns.erase conn, changes := s.changes.erase conn } : State).onBlocks
        (disableConnBlock (cfg.ctx now true) conn) := by
    rw [step]
    simp only [hsc, hidle]
    rfl
  rw [hstep]
  let gone : State := { s.toState with conns := s.conns.erase conn, changes := s.changes.erase conn }
  have hgone : FlagsSame s s.model (gone.onBlocks (disableConnBlock (cfg.ctx now true) conn)).model ∧ _ :=
    engine_onBlocks hs rfl fun _ _ => disableConnBlock_frame
  obtain ⟨hflg, hconns⟩ := hgone
  refine ⟨hflg, onBlocks_rs _ _, ?_⟩
  intro other hne hoth
  rw [hconns]
  rw [lookup_erase_ne hne]
  exact hoth

lemma endAssociation_absent {now : SystemTime}
    (h : ¬∃ sc, s.conns.lookup conn = some sc ∧ sc.inRequest = false) : s.endAssociation cfg conn now = s := by
  unfold endAssociation
  split
  · rfl
  next sc hsc =>
  split
  · rfl
  · next hreq => exact absurd ⟨sc, hsc, (Bool.not_eq_true _).mp hreq⟩ h

lemma SvPlaced.entry_eq (hs : s.SvPlaced) (hst : s.svcbs.lookup key = some st)
    {e : Sigma fun _ : String => SvcbState} (he : e ∈ inKeyOrder s.svcbs) (hpath : st.path = e.2.path)
    (hfc : st.fc = e.2.fc) : e.2 = st := by
  have hlook : s.svcbs.lookup e.1 = some e.2 := mem_lookup_iff.mpr (mem_inKeyOrder.mp he)
  have hkey := hs.key_eq hlook hst hpath hfc
  rw [hkey] at hst
  exact mem_unique hlook hst

lemma flag_end (cfg : Config) (now : SystemTime) (hs : s.SvPlaced)
    (hsc : s.conns.lookup conn = some sc) (hidle : sc.inRequest = false) {b : SvcbState}
    (hb : s.svcbs.lookup key = some b) (hn : n ∈ svFlags) :
    b.flag (s.endAssociation cfg conn now).model n = if b.owner = some conn then false else b.flag s.model n := by
  obtain ⟨st, heq, hflg, -⟩ := ended cfg now hs hsc hidle
  have hsm : b.flag st.model n = b.flag s.model n := by
    rw [b.flag_eq, b.flag_eq, hflg key b hb n hn]
  have howned : (∃ e ∈ inKeyOrder s.svcbs, b.path = e.2.path ∧ b.fc = e.2.fc ∧ e.2.owner = some conn) ↔
      b.owner = some conn := by
    constructor
    · rintro ⟨e, he, hpath, hfc, howned⟩
      rwa [hs.entry_eq hb he hpath hfc] at howned
    · exact fun howned => ⟨⟨key, b⟩, mem_inKeyOrder.mpr (mem_lookup_iff.mp hb), rfl, rfl, howned⟩
  rw [heq, ← hsm, ← if_congr howned rfl rfl]
  exact flag_release conn b (inKeyOrder s.svcbs) (st.model, s.svcbs) hn

lemma reserved_end (hs : s.SvPlaced) (h : s.Reserved) (conn : ConnId) (now : SystemTime) :
    (s.endAssociation cfg conn now).Reserved ∧ (s.endAssociation cfg conn now).SvPlaced ∧
      s.SvRespected cfg (.endAssociation conn now) := by
  by_cases hthere : ∃ sc, s.conns.lookup conn = some sc ∧ sc.inRequest = false
  · obtain ⟨sc, hsc, hidle⟩ := hthere
    obtain ⟨st, heq, hflg, hrs, hconns⟩ := ended cfg now hs hsc hidle
    have hblocks := blocks_release conn st.model s.svcbs
    have how : (releaseSvcbs conn st.model s.svcbs).2.All fun _ b => b.owner ≠ some conn :=
      owner_release (inKeyOrder s.svcbs) (st.model, s.svcbs) fun key b hb _ => mem_inKeyOrder.mpr (mem_lookup_iff.mp hb)
    have hflag {key : String} {b : SvcbState} (hb : s.svcbs.lookup key = some b) {n : String} (hn : n ∈ svFlags) :=
      flag_end cfg now hs hsc hidle hb hn
    rw [SvRespected]
    rw [heq] at hflag ⊢
    refine ⟨⟨?_, ?_, ?_⟩, hs.of_places ?_ hrs rfl, fun _ _ _ => ⟨how, ?_⟩⟩
    · intro key b' hb' hu
      obtain ⟨b, hb, rfl | ⟨howned, rfl⟩⟩ := hblocks key b' hb'
      · rw [hflag hb (by decide), if_neg (how key b' hb')]
        exact h.resv key b' hb hu
      have hclear := hflag hb (n := "Resv") (by decide)
      rw [if_pos howned] at hclear
      exact ⟨fun hon => absurd (hclear.symm.trans hon) (by decide), fun hon => by cases hon⟩
    · intro key b' hb' hu
      obtain ⟨b, hb, rfl | ⟨-, rfl⟩⟩ := hblocks key b' hb'
      · exact h.multicast key b' hb hu
      · rfl
    · intro key b' hb' other hoth
      obtain ⟨b, hb, rfl | ⟨-, rfl⟩⟩ := hblocks key b' hb'
      · apply hconns other _ (h.live key b' hb other hoth)
        rintro rfl
        exact how key b' hb' hoth
      · cases hoth
    · intro key b' hb'
      obtain ⟨b, hb, rfl | ⟨-, rfl⟩⟩ := hblocks key b' hb'
      · exact ⟨b', hb, rfl⟩
      · exact ⟨b, hb, rfl⟩
    · intro key b hb howned
      rw [hflag hb (by decide), if_pos howned]
  · rw [endAssociation_absent hthere]
    refine ⟨h, hs, ?_⟩
    intro sc hsc hidle
    exact absurd ⟨sc, hsc, hidle⟩ hthere

def AboutSv (s : Inner) : Service → Prop
  | .write _ domain item _ => ∃ key attr, s.target domain item = .sampled key attr
  | .endAssociation _ _ => True
  | _ => False

lemma svKept_serve (hs : s.SvPlaced) (hx : s.SvChecked cfg x) (hno : ¬s.AboutSv x) : SvKept s (s.serve cfg x) := by
  cases x with
  | write w domain item v => exact svKept_writeOne hs (fun key attr heq => hno ⟨key, attr, heq⟩) hx.2
  | operate conn reference ctlVal => exact svKept_operate conn reference ctlVal
  | defineDataSet domain list items => exact svKept_define domain list items
  | deleteDataSet domain list => exact svKept_delete cfg.render domain list
  | endAssociation conn now => exact absurd trivial hno
  | engine x =>
    dsimp only [serve]
    split
    · next hbg => exact svKept_background hs hbg
    · exact .refl

lemma reserved_serve (hs : s.SvPlaced) (h : s.Reserved) (hx : s.SvChecked cfg x) :
    (s.serve cfg x).Reserved ∧ (s.serve cfg x).SvPlaced := by
  by_cases habout : s.AboutSv x
  · cases x with
    | write w domain item v =>
      obtain ⟨key, attr, ht⟩ := habout
      exact reserved_writeOne hs h hx.1 ht
    | endAssociation conn now =>
      have hend : (s.endAssociation cfg conn now).Reserved ∧ (s.endAssociation cfg conn now).SvPlaced ∧ _ :=
        reserved_end hs h conn now
      exact ⟨hend.1, hend.2.1⟩
    | operate | defineDataSet | deleteDataSet | engine => exact habout.elim
  · have hk := svKept_serve hs hx habout
    exact ⟨h.kept hk, hk.placed hs⟩

lemma respected_write (hs : s.SvPlaced) (hx : s.SvChecked cfg (.write w domain item v)) :
    s.SvRespected cfg (.write w domain item v) := by
  intro key st name hst hsite hpath hres
  obtain ⟨s₁, hchk, hsto, -⟩ := writeOne_accepted_eq hres
  obtain ⟨changes, ⟨ln, da, -, hda, hpm, -⟩, -⟩ := store_eq_ok hsto
  have hfc : st.fc ∈ [Fc.us, Fc.ms] := by
    rcases st.fc_cases with h | h <;> rw [h] <;> decide
  by_cases ht : ∃ key attr, s.target domain item = .sampled key attr
  · obtain ⟨key', attr, ht⟩ := ht
    obtain ⟨st', rest, hst', hd, -, hsp⟩ := svcbKey_own hs (addressed_of_target ht)
    obtain ⟨hnm, hfc', -⟩ := writePath_split hsp hpath
    rw [parseLenient_asStr] at hfc'
    have hown : writeSite domain item = some st'.path := by
      rw [writeSite, hpath, hsp, hd, ← hnm]
      rfl
    have hkey := hs.key_eq hst' hst (mem_unique hsite hown) hfc'.symm
    rw [ht, ← hkey] at hchk
    exact (checked_sampled hst hchk).1
  by_cases hpl : s.target domain item = .plain
  · rw [hpl] at hpm
    have hw : da.fc ∈ writableFcs cfg.writable := mem_writable_of_permitted (hpm rfl)
    rcases hx.2 hpl key st hst with hno | hno | hno
    · rw [fc_of_single hda hpath] at hw
      exact absurd hw hno
    · exact absurd hsite hno
    · rw [hpath] at hno
      exact absurd rfl hno
  · exact absurd hfc (fc_of_target (fun key attr heq => ht ⟨key, attr, heq⟩) hpl hpath)

variable {opts : Options}

lemma unowned_new (opts : Options) (m : Model) : (new opts m).svcbs.All fun _ st => st.owner = none :=
  sampled_new fun _ _ _ _ => rfl

lemma reserved_new (hfree : (new opts m).svcbs.All fun _ st => st.flag (servedModel opts m) "Resv" = false) :
    (new opts m).Reserved := by
  have hno := unowned_new opts m
  refine ⟨?_, fun key st hst _ => hno key st hst, ?_⟩
  · intro key st hst _
    rw [hno key st hst]
    have hflag : st.flag (new opts m).model "Resv" = false := hfree key st hst
    simp [hflag]
  intro key st hst conn hconn
  rw [hno key st hst] at hconn
  cases hconn

def sampledModel : Model :=
  let sample := sampleModel { name := "u", dataSet := "ds" }
  { sample with devices := sample.devices.map fun ld =>
      { ld with nodes := ld.nodes.map fun ln => { ln with svControls := [{ name := "sv01", dataSet := "ds" }] } } }

def twoConnected : List Service := [.engine (.connect none 65000), .engine (.connect none 65000)]

def reservedByFirst : List Service :=
  twoConnected ++
    [ .write (writeBy 1) "LD" "LLN0$US$sv01$Resv" (.boolean true),
      .write (writeBy 1) "LD" "LLN0$US$sv01$SvEna" (.boolean true),
      .write (writeBy 2) "LD" "LLN0$US$sv01$SvEna" (.boolean false),
      .endAssociation 1 sampleTime ]

def clearedBySecond : List Service :=
  twoConnected ++
    [ .write (writeBy 1) "LD" "LLN0$US$sv01$Resv" (.boolean true),
      .write (writeBy 2) "LD" "LLN0$us$sv01$Resv" (.boolean false) ]

def writableSampled : Config := { sampleConfig with writable := [.us] }

/-- In every run whose writes go by the check of the sampled-value blocks, `Resv` of a unicast block is true
exactly while an association owns the block, and the next service respects it. -/
theorem sampled_reservation (cfg : Config) (opts : Options) (m : Model) (services : List Service)
    (hs : (new opts m).SvApart)
    (hfree : (new opts m).svcbs.All fun _ st => st.flag (servedModel opts m) "Resv" = false)
    (hc : Runs.Admitted (serve cfg) (SvChecked cfg) (new opts m) services) :
    ((new opts m).run cfg services).Reserved ∧ ∀ x, ((new opts m).run cfg services).SvChecked cfg x →
        ((new opts m).run cfg services).SvRespected cfg x := by
  have hrun := Runs.induction_admitted (fun s => s.Reserved ∧ s.SvPlaced) (fun s x h hx => reserved_serve h.2 h.1 hx)
      ⟨reserved_new hfree, hs, (registered_new opts m).sampled⟩ hc
  refine ⟨hrun.1, ?_⟩
  intro x hx
  cases x with
  | write w domain item v => exact respected_write hrun.2 hx
  | endAssociation conn now => exact (reserved_end hrun.2 hrun.1 conn now).2.2
  | operate | defineDataSet | deleteDataSet | engine => trivial

/-- The block of the client that went is free and disabled. -/
theorem sampled_reservation_first : ((new {} sampledModel).run sampleConfig reservedByFirst).Reserved ∧
      (((new {} sampledModel).run sampleConfig reservedByFirst).attrOf "LD" "LLN0" "sv01" "SvEna").map
        Value.asBool = some false := by
  refine ⟨?_, by decide +kernel⟩
  exact (sampled_reservation sampleConfig {} sampledModel reservedByFirst (by decide +kernel) (by decide +kernel)
    (by decide +kernel)).1

/-- A client that does not own the block clears its reservation. -/
theorem reservation_cleared_by_other : ((new {} sampledModel).run writableSampled clearedBySecond).svcbs.entries.map
        (fun e => (e.2.owner, e.2.flag ((new {} sampledModel).run writableSampled clearedBySecond).model "Resv")) =
        [(some 1, false)] ∧ ¬ ((new {} sampledModel).run writableSampled clearedBySecond).Reserved := by
  refine ⟨by decide +kernel, ?_⟩
  intro h
  have hresv : ¬ ((new {} sampledModel).run writableSampled clearedBySecond).svcbs.All fun _ st =>
      st.unicast = true → (st.flag ((new {} sampledModel).run writableSampled clearedBySecond).model "Resv" = true ↔
        st.owner.isSome = true) := by
    decide +kernel
  exact hresv h.resv

end Inner

namespace SvControlEvent

def isOf (st : SvcbState) (e : SvControlEvent) : Bool :=
  e.device = st.device ∧ e.node = st.node ∧ e.block = st.block ∧ e.unicast = st.unicast

/-- The event states the flags of the block in the model. -/
def States (m : Model) (st : SvcbState) (e : SvControlEvent) : Prop :=
  e.enabled = st.flag m "SvEna" ∧ e.reserved = (st.unicast && st.flag m "Resv")
deriving Decidable

def lastOf (st : SvcbState) (events : List SvControlEvent) : Option SvControlEvent := (events.filter (isOf st)).getLast?

end SvControlEvent

def Service.conn : Service → ConnId
  | .write w _ _ _ => w.conn
  | .endAssociation conn _ => conn
  | _ => 0

namespace Inner
open SvControlEvent
variable {s s' : Inner} {cfg : Config} {w : WriteCtx} {domain item key attr : String} {v : Value} {conn : ConnId}
  {made : List SvControlEvent} {st : SvcbState} {e : SvControlEvent}

def releaseEvents (conn : ConnId) : List (Sigma fun _ : String => SvcbState) → Model × Table String SvcbState → List SvControlEvent
  | [], _ => []
  | e :: rest, done =>
    let next := releaseConn conn done e.1 e.2
    (if e.2.owner = some conn then [{ e.2 with owner := none : SvcbState }.event next.1] else []) ++ releaseEvents conn rest next

def svEvents (cfg : Config) (s : Inner) : Service → List SvControlEvent
  | .write w domain item v => (s.writeOne cfg w domain item v).2.2.toList
  | .endAssociation conn now =>
    if (s.conns.lookup conn).any fun sc => !sc.inRequest then
      releaseEvents conn (inKeyOrder s.svcbs) ((step cfg s.toState (.endAssociation conn now)).model, s.svcbs)
    else []
  | _ => []

/-- The last event of every block states its flags. -/
def Told (s : Inner) (made : List SvControlEvent) : Prop := s.svcbs.All fun _ st => ∀ e ∈ lastOf st made, e.States s.model st

lemma isOf_event {o : Option ConnId} {m : Model} : isOf st ({ st with owner := o : SvcbState }.event m) := by
  simp [isOf, SvcbState.event]

lemma path_of_isOf {st' : SvcbState} (h : isOf st e) (h' : isOf st' e) : st.path = st'.path ∧ st.fc = st'.fc := by
  obtain ⟨hd, hl, hb, hu⟩ := of_decide_eq_true h
  obtain ⟨hd', hl', hb', hu'⟩ := of_decide_eq_true h'
  constructor
  · rw [path, path, ← hd, ← hl, ← hb, hd', hl', hb']
  · rw [fc, fc, ← hu, hu']

variable {events : List SvControlEvent} {done : Model × Table String SvcbState} {x : Service}

lemma lastOf_append_none (h : ∀ e ∈ events, isOf st e = false) : lastOf st (made ++ events) = lastOf st made := by
  have hno : events.filter (isOf st) = [] := filter_eq_nil_iff.mpr fun e he => by simp [h e he]
  rw [lastOf, filter_append, hno, append_nil, lastOf]

lemma mem_lastOf_append (h : ∃ e ∈ events, isOf st e)
    (he : e ∈ lastOf st (made ++ events)) : e ∈ events ∧ isOf st e := by
  obtain ⟨e0, hm, his⟩ := h
  rw [lastOf, filter_append, getLast?_append_of_ne_nil _ (ne_nil_of_mem (mem_filter.mpr ⟨hm, his⟩))] at he
  exact mem_filter.mp (mem_of_getLast? he)

lemma mem_releaseEvents {es : List (Sigma fun _ : String => SvcbState)} (h : e ∈ releaseEvents conn es done) :
    e.enabled = false ∧ e.reserved = false ∧ ∃ x ∈ es, x.2.owner = some conn ∧ isOf x.2 e := by
  induction es generalizing done with
  | nil => cases h
  | cons x rest ih =>
    rcases mem_append.mp h with hfst | hrs
    · split at hfst
      next how =>
        cases mem_singleton.mp hfst
        have hclear (n : String) (hn : n ∈ svFlags) :
            ({ x.2 with owner := none } : SvcbState).flag (releaseConn conn done x.1 x.2).1 n = false :=
          (flag_releaseConn done x.1 hn).trans (if_pos ⟨rfl, rfl, how⟩)
        refine ⟨hclear "SvEna" (by decide), ?_, x, mem_cons_self, how, isOf_event⟩
        rw [SvcbState.event, hclear "Resv" (by decide), Bool.and_false]
      · cases hfst
    · obtain ⟨hena, hresv, x', hx', hof⟩ := ih hrs
      exact ⟨hena, hresv, x', mem_cons_of_mem x hx', hof⟩

lemma exists_releaseEvents {es : List (Sigma fun _ : String => SvcbState)}
    {x : Sigma fun _ : String => SvcbState} (hx : x ∈ es) (how : x.2.owner = some conn) :
    ∃ e ∈ releaseEvents conn es done, isOf x.2 e := by
  induction es generalizing done with
  | nil => cases hx
  | cons y rest ih =>
    rw [releaseEvents]
    rcases mem_cons.mp hx with rfl | hx
    · rw [if_pos how]
      exact ⟨_, mem_append_left _ mem_cons_self, isOf_event⟩
    · obtain ⟨e, he, hof⟩ := ih hx
      exact ⟨e, mem_append_right _ he, hof⟩

lemma Told.kept (h : s.Told made) (hk : SvKept s s') : s'.Told made := by
  rw [Told, hk.svcbs]
  intro key st hst e he
  obtain ⟨hena, hresv⟩ := h key st hst e he
  rw [States, hk.flag_eq hst (by decide), hk.flag_eq hst (by decide)]
  exact ⟨hena, hresv⟩

lemma onSvcbWrite_event (m : Model) {blocks : Table String SvcbState} (old : Bool) (conn : ConnId)
    (hst : blocks.lookup key = some st) (hat : attr = "SvEna" ∨ attr = "Resv") :
    (st.flag m attr = old ∧ (onSvcbWrite m key attr old conn blocks).2 = none) ∨
      ∃ o, (onSvcbWrite m key attr old conn blocks).2 = some ({ st with owner := o : SvcbState }.event m) := by
  unfold onSvcbWrite
  rw [hst]
  rcases hat with rfl | rfl
  · by_cases hsm : st.flag m "SvEna" = old
    · exact .inl ⟨hsm, by simp [hsm]⟩
    · exact .inr ⟨st.owner, by simp [hsm]⟩
  by_cases hsm : st.flag m "Resv" = old
  · exact .inl ⟨hsm, by simp [hsm]⟩
  · exact .inr ⟨_, by simp [hsm]; rfl⟩

lemma told_sampled {s₁ : Inner} (hs : s.SvPlaced) (h : s.Told made) (ht : s.target domain item = .sampled key attr)
    (hchk : s.check w domain v (.sampled key attr) = .ok ()) (hsto : s.store cfg w domain item v true = .ok s₁) :
    (effect w domain v s s₁ (.sampled key attr)).1.Told (made ++ (effect w domain v s s₁ (.sampled key attr)).2.toList) := by
  obtain ⟨st, -, hst, -, -, -⟩ := svcbKey_own hs (addressed_of_target ht)
  have hat : attr = "SvEna" ∨ attr = "Resv" := (checked_sampled hst hchk).2.imp_right And.left
  have hsvcbs : s₁.svcbs = s.svcbs := by
    obtain ⟨changes, -, rfl⟩ := store_eq_ok hsto
    rfl
  have hevent := onSvcbWrite_event s₁.model (svcbBefore s.model s.svcbs key attr) w.conn hst hat
  intro key' st' hst'
  have hplace := places_onSvcbWrite key' st' hst'
  rw [hsvcbs] at hplace
  obtain ⟨b, hb, hsm⟩ := hplace
  have hkp (n : String) (hne : key' = key → attr ≠ n) : b.flag s₁.model n = b.flag s.model n :=
    flag_sampled hs ht hsto hb hne
  rw [hsm]
  show ∀ e ∈ lastOf b (made ++ (onSvcbWrite s₁.model key attr _ w.conn s₁.svcbs).2.toList), e.States s₁.model b
  rw [hsvcbs]
  have hflg (hall : ∀ n, b.flag s₁.model n = b.flag s.model n) : ∀ e ∈ lastOf b made, e.States s₁.model b := by
    intro e he
    rw [States, hall, hall]
    exact h key' b hb e he
  by_cases hkey : key' = key
  · subst hkey
    cases hb.symm.trans hst
    rcases hevent with ⟨hold, hno⟩ | ⟨o, hsome⟩
    · rw [hno, toList_none, append_nil]
      apply hflg
      intro n
      by_cases hn : attr = n
      · rw [← hn, hold, svcbBefore, hb]
        rfl
      · exact hkp n fun _ => hn
    rw [hsome]
    intro e he
    obtain ⟨hm, -⟩ := mem_lastOf_append ⟨_, mem_cons_self, isOf_event⟩ he
    cases mem_singleton.mp hm
    exact ⟨rfl, rfl⟩
  rw [lastOf_append_none]
  · exact hflg fun n => hkp n fun heq => absurd heq hkey
  intro e he
  rcases hevent with ⟨-, hno⟩ | ⟨o, hsome⟩
  · rw [hno] at he
    cases he
  rw [hsome] at he
  cases mem_singleton.mp he
  by_contra his
  obtain ⟨hpath, hfc⟩ := path_of_isOf ((Bool.not_eq_false _).mp his) isOf_event
  exact hkey (hs.key_eq hst hb hpath hfc)

lemma told_write (hs : s.SvPlaced) (h : s.Told made) (ht : s.target domain item = .sampled key attr) :
    (s.writeOne cfg w domain item v).1.Told (made ++ (s.writeOne cfg w domain item v).2.2.toList) := by
  rcases hres : (s.writeOne cfg w domain item v).2.1 with e | u
  · rw [writeOne_refused hres]
    simpa using h.kept (svKept_track hs domain item (s.target domain item).controlBlock (.error e))
  obtain ⟨s₁, hchk, hsto, heq⟩ := writeOne_accepted hres
  rw [ht] at hchk hsto
  rw [heq, ht]
  have hplaced : (effect w domain v s s₁ (.sampled key attr)).1.SvPlaced := placed_sampled hs hsto
  have hkp := svKept_track (w := w) (v := v) hplaced domain item (CbTarget.sampled key attr).controlBlock (.ok ())
  exact (told_sampled hs h ht hchk hsto).kept hkp

lemma told_end (hs : s.SvPlaced) (h : s.Told made) (now : SystemTime) :
    (s.endAssociation cfg conn now).Told (made ++ s.svEvents cfg (.endAssociation conn now)) := by
  by_cases hthere : ∃ sc, s.conns.lookup conn = some sc ∧ sc.inRequest = false
  · obtain ⟨sc, hsc, hidle⟩ := hthere
    have hevents : s.svEvents cfg (.endAssociation conn now) =
        releaseEvents conn (inKeyOrder s.svcbs) ((step cfg s.toState (.endAssociation conn now)).model, s.svcbs) := by
      rw [svEvents, hsc, Option.any_some, hidle]
      rfl
    obtain ⟨st, heq, -⟩ := ended cfg now hs hsc hidle
    have hflag {key : String} {b : SvcbState} (hb : s.svcbs.lookup key = some b) {n : String} (hn : n ∈ svFlags) :=
      flag_end cfg now hs hsc hidle hb hn
    rw [hevents]
    rw [heq] at hflag ⊢
    intro key b' hb'
    obtain ⟨b, hb, hsm⟩ : ∃ b, s.svcbs.lookup key = some b ∧ b' = { b with owner := b'.owner } := by
      obtain ⟨b, hb, rfl | ⟨-, rfl⟩⟩ := blocks_release conn st.model s.svcbs key b' hb'
      · exact ⟨b', hb, rfl⟩
      · exact ⟨b, hb, rfl⟩
    rw [hsm]
    show ∀ e ∈ lastOf b (made ++ _), e.States (releaseSvcbs conn st.model s.svcbs).1 b
    have hena := hflag hb (n := "SvEna") (by decide)
    have hresv := hflag hb (n := "Resv") (by decide)
    by_cases hown : b.owner = some conn
    rotate_left
    · rw [lastOf_append_none]
      · intro e he
        rw [States, hena, hresv, if_neg hown, if_neg hown]
        exact h key b hb e he
      intro e he
      obtain ⟨-, -, x, hx, how, hof⟩ := mem_releaseEvents he
      by_contra his
      obtain ⟨hpath, hfc⟩ := path_of_isOf ((Bool.not_eq_false _).mp his) hof
      rw [hs.entry_eq hb hx hpath hfc] at how
      exact hown how
    rw [if_pos hown] at hena hresv
    intro e he
    obtain ⟨hm, -⟩ := mem_lastOf_append (exists_releaseEvents (mem_inKeyOrder.mpr (AList.mem_lookup_iff.mp hb)) hown) he
    obtain ⟨heena, heresv, -⟩ := mem_releaseEvents hm
    exact ⟨heena.trans hena.symm, by rw [heresv, hresv, Bool.and_false]⟩
  · have hno : s.svEvents cfg (.endAssociation conn now) = [] := by
      apply if_neg
      rw [Option.any_eq_true]
      rintro ⟨sc, hsc, hidle⟩
      exact hthere ⟨sc, hsc, by simpa using hidle⟩
    rw [endAssociation_absent hthere, hno, List.append_nil]
    exact h

lemma svEvents_of_not_about (hno : ¬s.AboutSv x) : s.svEvents cfg x = [] := by
  cases x with
  | write w domain item v =>
    have hevent (s₁ : Inner) : (effect w domain v s s₁ (s.target domain item)).2 = none := by
      cases ht : s.target domain item with
      | sampled key attr => exact absurd ⟨key, attr, ht⟩ hno
      | setting attr =>
        dsimp only [effect]
        split <;> rfl
      | report key attr | log key attr | plain => rfl
    cases hres : (s.writeOne cfg w domain item v).2.1 with
    | error e => rw [svEvents, writeOne_refused hres, toList_none]
    | ok u =>
      obtain ⟨s₁, -, -, heq⟩ := writeOne_accepted hres
      rw [svEvents, heq, hevent, toList_none]
  | endAssociation conn now => exact absurd trivial hno
  | operate | defineDataSet | deleteDataSet | engine => rfl

lemma told_serve (hs : s.SvPlaced) (h : s.Told made) (hx : s.SvChecked cfg x) :
    (s.serve cfg x).Told (made ++ s.svEvents cfg x) := by
  by_cases habout : s.AboutSv x
  · cases x with
    | write w domain item v =>
      obtain ⟨key, attr, ht⟩ := habout
      exact told_write hs h ht
    | endAssociation conn now => exact told_end hs h now
    | operate | defineDataSet | deleteDataSet | engine => exact habout.elim
  · rw [svEvents_of_not_about habout, append_nil]
    exact h.kept (svKept_serve hs hx habout)

end Inner

/-- The server with the events on their way: those made and not yet queued, the queue, and what the application
has been told. `made` is the order of the changes. -/
structure SvDelivery where
  inner : Inner
  unqueued : List (ConnId × SvControlEvent) := []
  queue : List SvControlEvent := []
  delivered : List SvControlEvent := []
  made : List SvControlEvent := []

inductive SvStep where
  /-- A section of a task under the model lock. -/
  | serve (x : Service)
  /-- The task of an association queues what it has made. -/
  | queue (conn : ConnId)
  | deliver

namespace SvDelivery
variable {cfg : Config} {s : SvDelivery}

def step (cfg : Config) (s : SvDelivery) : SvStep → SvDelivery
  | .serve x =>
    let events := s.inner.svEvents cfg x
    { s with
      inner := s.inner.serve cfg x
      unqueued := s.unqueued ++ events.map fun e => (x.conn, e)
      made := s.made ++ events }
  | .queue conn =>
    { s with
      queue := s.queue ++ (s.unqueued.filter (·.1 = conn)).map (·.2)
      unqueued := s.unqueued.filter (·.1 ≠ conn) }
  | .deliver =>
    match s.queue with
    | e :: rest => { s with queue := rest, delivered := s.delivered ++ [e] }
    | [] => s

def run (cfg : Config) (s : SvDelivery) (steps : List SvStep) : SvDelivery := steps.foldl (step cfg) s

/-- A write that makes an event finds the events of other associations queued. -/
def Prompt (cfg : Config) (s : SvDelivery) : SvStep → Prop
  | .serve x => s.inner.SvChecked cfg x ∧ (s.inner.svEvents cfg x ≠ [] → ∀ p ∈ s.unqueued, p.1 = x.conn)
  | _ => True

instance (cfg : Config) (s : SvDelivery) (x : SvStep) : Decidable (s.Prompt cfg x) := by
  cases x <;> unfold Prompt <;> infer_instance

structure InOrder (s : SvDelivery) : Prop where
  reserved : s.inner.Reserved
  placed : s.inner.SvPlaced
  order : s.made = s.delivered ++ s.queue ++ s.unqueued.map (·.2)
  one : ∃ conn, ∀ p ∈ s.unqueued, p.1 = conn
  told : s.inner.Told s.made

lemma inOrder_step {x : SvStep} (h : s.InOrder) (hx : s.Prompt cfg x) : (step cfg s x).InOrder := by
  cases x with
  | serve x =>
    obtain ⟨hreserved, hplaced⟩ := reserved_serve h.placed h.reserved hx.1
    refine ⟨hreserved, hplaced, ?_, ?_, told_serve h.placed h.told hx.1⟩
    · simp [step, h.order]
    by_cases hno : s.inner.svEvents cfg x = []
    · obtain ⟨conn, hone⟩ := h.one
      exact ⟨conn, by simpa [step, hno] using hone⟩
    · refine ⟨x.conn, forall_mem_append.mpr ⟨hx.2 hno, ?_⟩⟩
      simp
  | queue conn =>
    obtain ⟨own, hone⟩ := h.one
    refine ⟨h.reserved, h.placed, ?_, ⟨own, fun p hp => hone p (mem_of_mem_filter hp)⟩, h.told⟩
    by_cases hown : own = conn
    · have hall : s.unqueued.filter (·.1 = conn) = s.unqueued := filter_eq_self.mpr fun p hp => by simp [hone p hp, hown]
      have hno : s.unqueued.filter (·.1 ≠ conn) = [] := filter_eq_nil_iff.mpr fun p hp => by simp [hone p hp, hown]
      simp only [step, hall, hno, h.order, append_assoc, map_nil, append_nil]
    have hno : s.unqueued.filter (·.1 = conn) = [] := filter_eq_nil_iff.mpr fun p hp => by simp [hone p hp, hown]
    have hall : s.unqueued.filter (·.1 ≠ conn) = s.unqueued := filter_eq_self.mpr fun p hp => by simp [hone p hp, hown]
    simp only [step, hall, hno, h.order, append_nil, map_nil]
  | deliver =>
    rw [step]
    split
    · next e rest hq => exact ⟨h.reserved, h.placed, by simp [h.order, hq], h.one, h.told⟩
    · exact h

/-- In every run in which the tasks queue their changes before another makes one, the application is told of
them in order; once it has been told of all, the last event of each block states its flags. -/
theorem events_in_order (cfg : Config) (opts : Options) (m : Model) (steps : List SvStep) (hs : (new opts m).SvApart)
    (hfree : (new opts m).svcbs.All fun _ st => st.flag (servedModel opts m) "Resv" = false)
    (hprompt : Runs.Admitted (step cfg) (Prompt cfg) { inner := new opts m } steps) :
    (run cfg { inner := new opts m } steps).delivered <+: (run cfg { inner := new opts m } steps).made ∧
      ((run cfg { inner := new opts m } steps).queue = [] → (run cfg { inner := new opts m } steps).unqueued = [] →
        (run cfg { inner := new opts m } steps).inner.Told (run cfg { inner := new opts m } steps).delivered) := by
  have hinit : InOrder { inner := new opts m } :=
    { reserved := reserved_new hfree
      placed := ⟨hs, (registered_new opts m).sampled⟩
      order := rfl
      one := ⟨0, by simp⟩
      told := by simp [Told, Table.All, SvControlEvent.lastOf] }
  have hrun : (run cfg { inner := new opts m } steps).InOrder :=
    Runs.induction_admitted InOrder (fun _ _ => inOrder_step) hinit hprompt
  generalize run cfg { inner := new opts m } steps = t at hrun
  constructor
  · rw [hrun.order, append_assoc]
    exact prefix_append _ _
  intro hqueue hunqueued
  have hall := hrun.told
  rw [hrun.order, hqueue, hunqueued, append_nil, map_nil, append_nil] at hall
  exact hall

def reservedInTurn : List SvStep :=
  (twoConnected.map .serve) ++
    [.serve (.write (writeBy 1) "LD" "LLN0$US$sv01$Resv" (.boolean true)), .queue 1, .deliver]

/-- The application is told of the reservation. -/
theorem events_in_order_once : (run sampleConfig { inner := new {} sampledModel } reservedInTurn).delivered <+:
        (run sampleConfig { inner := new {} sampledModel } reservedInTurn).made ∧
      (run sampleConfig { inner := new {} sampledModel } reservedInTurn).delivered.map (·.reserved) = [true] :=
  ⟨(events_in_order sampleConfig {} sampledModel reservedInTurn (by decide +kernel) (by decide +kernel)
    (by decide +kernel)).1, by decide +kernel⟩

def queuedLate : List SvStep :=
  (twoConnected.map .serve) ++
    [.serve (.write (writeBy 1) "LD" "LLN0$US$sv01$SvEna" (.boolean true)),
      .serve (.write (writeBy 2) "LD" "LLN0$US$sv01$SvEna" (.boolean false)), .queue 2, .queue 1, .deliver, .deliver]

/-- The last event says that the block is enabled, and it is disabled. -/
theorem told_in_reverse :
    (run sampleConfig { inner := new {} sampledModel } queuedLate).made.map (·.enabled) = [true, false] ∧
      (run sampleConfig { inner := new {} sampledModel } queuedLate).delivered.map (·.enabled) = [false, true] ∧
      ((run sampleConfig { inner := new {} sampledModel } queuedLate).inner.svcbs.entries.map fun e =>
        e.2.flag (run sampleConfig { inner := new {} sampledModel } queuedLate).inner.model "SvEna") = [false] := by
  decide +kernel

end SvDelivery
end Iec61850.Server
