import Iec61850.Runs
import Iec61850.ServerFrame
import Iec61850.ServerState
import Mathlib.Data.List.Find

/-! Operations on every block, where the blocks of a server are, its steps as they see them, and those it
starts with. -/
namespace Iec61850.Server
open Mms List

variable {f : RcbState → Work → Work} {R : RcbState → RcbState → Prop} {b : Block}

lemma runBlocks_other {P : Engine → Block → Prop}
    (hP : ∀ (b' : Block) g, R b.rs b'.rs → P g b → P (f b'.rs (b'.work g)).toEngine b) (bs : List Block)
    (g : Engine) (hR : ∀ b' ∈ bs, R b.rs b'.rs) (h : P g b) : P (runBlocks f bs g).1 b := by
  induction bs generalizing g with
  | nil => exact h
  | cons b' rest ih =>
    apply ih
    · intro b'' hb
      exact hR b'' (mem_cons_of_mem _ hb)
    · exact hP b' g (hR b' mem_cons_self) h

lemma runBlocks_forall (Pre Post : Engine → Block → Prop)
    (hf : ∀ b g, Pre g b → Post (f b.rs (b.work g)).toEngine (b.after (f b.rs (b.work g))))
    (hpre : ∀ (b b' : Block) g, R b.rs b'.rs → Pre g b' → Pre (f b.rs (b.work g)).toEngine b')
    (hpost : ∀ (b b' : Block) g, R b.rs b'.rs → Post g b → Post (f b'.rs (b'.work g)).toEngine b)
    (bs : List Block) (g : Engine) (hR : bs.Pairwise fun b b' => R b.rs b'.rs) (h : ∀ b ∈ bs, Pre g b) :
    ∀ b ∈ (runBlocks f bs g).2, Post (runBlocks f bs g).1 b := by
  induction bs generalizing g with
  | nil =>
    intro b hb
    simp [runBlocks] at hb
  | cons b rest ih =>
    obtain ⟨hhead, htail⟩ := pairwise_cons.mp hR
    intro b' hb'
    rcases mem_cons.mp hb' with rfl | hb'
    · -- The first block has had its turn; the others leave it.
      refine runBlocks_other ?_ rest _ hhead ?_
      · intro b'' g' hr hp
        exact hpost _ b'' g' hr hp
      · exact hf b g (h b mem_cons_self)
    refine ih _ htail ?_ b' hb'
    intro b'' hb''
    exact hpre b b'' g (hhead b'' hb'') (h b'' (mem_cons_of_mem _ hb''))

lemma runBlocks_rs (bs : List Block) (g : Engine) : (runBlocks f bs g).2.map Block.rs = bs.map Block.rs := by
  induction bs generalizing g with
  | nil => rfl
  | cons b rest ih =>
    simp only [runBlocks, map_cons, ih]
    rfl

/-- How the shared state changes while no block is at work and the model stays: no association goes,
and entry identifiers are only drawn. -/
structure Aside (g g' : Engine) : Prop where
  model : g'.model = g.model
  conns : ∀ conn, (g.conns.lookup conn).isSome = true → (g'.conns.lookup conn).isSome = true
  counter : g.entryCounter ≤ g'.entryCounter

/-- What holds of a block is disturbed neither by the work of the blocks that `R` tells apart from it, nor by
what happens to the shared state outside the model. -/
structure Undisturbed (R : RcbState → RcbState → Prop) (P : Engine → Block → Prop) : Prop where
  aside : ∀ g g' b, Aside g g' → P g b → P g' b
  other : ∀ names rs (w w' : Work) b, Frame names rs w w' → R b.rs rs → P w.toEngine b → P w'.toEngine b

variable {P Pre Post : Engine → Block → Prop} {C : Block → Prop} {s : State}

lemma Undisturbed.and (h : Undisturbed R P) (C : Block → Prop) : Undisturbed R fun g b => P g b ∧ C b :=
  ⟨fun g g' b ha hp => ⟨h.aside g g' b ha hp.1, hp.2⟩,
    fun names rs w w' b hf hr hp => ⟨h.other names rs w w' b hf hr hp.1, hp.2⟩⟩

lemma onBlocks_forall [Std.Symm R] (hpre : Undisturbed R Pre) (hpost : Undisturbed R Post)
    (hfr : ∀ rs w, Frame servedAttrs rs w (f rs w))
    (hf : ∀ b g, Pre g b → Post (f b.rs (b.work g)).toEngine (b.after (f b.rs (b.work g))))
    (hR : s.blocks.Pairwise fun b b' => R b.rs b'.rs) (h : ∀ b ∈ s.blocks, Pre s.toEngine b) :
    ∀ b ∈ (s.onBlocks f).blocks, Post (s.onBlocks f).toEngine b := by
  apply runBlocks_forall Pre Post hf ?_ ?_ s.blocks s.toEngine hR h
  · intro b b' g hr hp
    exact hpre.other _ b.rs (b.work g) _ b' (hfr _ _) (Std.Symm.symm _ _ hr) hp
  · intro b b' g hr hp
    exact hpost.other _ b'.rs (b'.work g) _ b (hfr _ _) hr hp

/-- Work on a block at its turn keeps what holds of it. -/
def Keeps (P : Engine → Block → Prop) (f : RcbState → Work → Work) : Prop :=
  ∀ b g, P g b → P (f b.rs (b.work g)).toEngine (b.after (f b.rs (b.work g)))

lemma onBlock_keeps [Std.Symm R] {key : String} (hP : Undisturbed R P)
    (hfr : ∀ rs w, Frame servedAttrs rs w (f rs w)) (hf : Keeps P f)
    (hR : s.blocks.Pairwise fun b b' => R b.rs b'.rs) (h : ∀ b ∈ s.blocks, P s.toEngine b) :
    ∀ b ∈ (s.onBlock key f).blocks, P (s.onBlock key f).toEngine b := by
  refine onBlocks_forall hP hP (fun rs w => (hfr rs w).ite) ?_ hR h
  intro b g hp
  split
  · exact hf b g hp
  · exact hp

lemma onBlocks_rs (s : State) (f : RcbState → Work → Work) :
    (s.onBlocks f).blocks.map Block.rs = s.blocks.map Block.rs :=
  runBlocks_rs s.blocks s.toEngine

/-- The relation for what no other block can disturb. -/
def anyTwo (_ _ : RcbState) : Prop := True

instance : Std.Symm anyTwo := ⟨fun _ _ _ => trivial⟩

lemma anyTwo_pairwise (bs : List Block) : bs.Pairwise fun b b' => anyTwo b.rs b'.rs :=
  pairwise_of_forall fun _ _ => trivial

def Step.isQuiet : Step → Bool
  | .connect .. | .beginRequest .. | .endRequest .. | .drain .. | .stall .. | .journal .. => true
  | _ => false

lemma isSome_lookup_insert {t : Table ConnId ServerConn} {conn conn' : ConnId} {sc : ServerConn}
    (h : (t.lookup conn').isSome) : ((t.insert conn sc).lookup conn').isSome := by
  by_cases hc : conn' = conn
  · subst hc
    simp
  · rw [AList.lookup_insert_ne hc]
    exact h

lemma queueHeld_state (conn : ConnId) (held : List (List UInt8)) (s : State) (sc : ServerConn) :
    ∃ dropped, (queueHeld conn held s sc).1 = { s with dropped := dropped } := by
  induction held generalizing s sc with
  | nil => exact ⟨s.dropped, rfl⟩
  | cons pdu rest ih =>
    rw [queueHeld]
    obtain ⟨dropped, h⟩ := ih (if (sc.trySend pdu).2 then s else
      { s with dropped := s.dropped ++ [(conn, pdu)] }) (sc.trySend pdu).1
    refine ⟨dropped, h.trans ?_⟩
    split <;> rfl

lemma step_quiet (cfg : Config) (s : State) {x : Step} (hx : x.isQuiet) :
    (step cfg s x).blocks = s.blocks ∧ (step cfg s x).tasks = s.tasks ∧ Aside s.toEngine (step cfg s x).toEngine := by
  have hsm : s.blocks = s.blocks ∧ s.tasks = s.tasks ∧ Aside s.toEngine s.toEngine :=
    ⟨rfl, rfl, rfl, fun _ h => h, le_rfl⟩
  cases x with
  | connect peer maxPdu => exact ⟨rfl, rfl, rfl, fun _ => isSome_lookup_insert, le_rfl⟩
  | beginRequest | drain | stall =>
    rw [step]
    split
    · exact hsm
    · exact ⟨rfl, rfl, rfl, fun _ => isSome_lookup_insert, le_rfl⟩
  | endRequest conn answered =>
    rw [step]
    split
    · exact hsm
    next sc hsc =>
    dsimp only [endRequest]
    split
    · obtain ⟨_, hq⟩ := queueHeld_state conn sc.after s { sc with inRequest := false, after := [] }
      rw [hq]
      exact ⟨rfl, rfl, rfl, fun _ => isSome_lookup_insert, le_rfl⟩
    · exact ⟨rfl, rfl, rfl, fun _ => isSome_lookup_insert, le_rfl⟩
  | journal n => exact ⟨rfl, rfl, rfl, fun _ h => h, Nat.le_add_right _ _⟩
  | _ => cases hx

lemma writeOne_cases (cfg : Config) (c : Ctx) (conn : ConnId) (domain item : String) (v : Value)
    (refusal : Option DataAccessError) (s : State) :
    let ip := peerIp ((s.conns.lookup conn).bind ServerConn.peer)
    let changes := (s.changes.lookup conn).getD ∅
    let s' := (writeOne cfg c conn domain item v refusal s).1
    s' = s ∨
    (∃ key attr b m ch, rcbKey domain item = some (key, attr) ∧ s.block key = some b ∧
      checkRcbWrite c s.model b.rs b.st attr v conn ip = .ok () ∧
      store cfg s.model changes domain item v true refusal = .ok (m, ch) ∧
      s' = ({ s with model := m } : State).onBlock key (onRcbWrite c attr v conn ip)) ∨
    rcbKey domain item = none ∧ ∃ m ch,
      store cfg s.model changes domain item v false refusal = .ok (m, ch) ∧
      s' = { s with model := m, changes := s.changes.insert conn ch } := by
  dsimp only [writeOne]
  split
  next key attr hkey =>
    split
    · exact .inl rfl
    next b hb =>
    split
    · exact .inl rfl
    next hchk =>
    split
    · exact .inl rfl
    next m ch hsto =>
      exact .inr (.inl ⟨key, attr, b, m, ch, hkey, hb, hchk, hsto, rfl⟩)
  next hkey =>
    split
    · exact .inl rfl
    · next m ch hsto => exact .inr (.inr ⟨hkey, m, ch, hsto, rfl⟩)

def Admitted (cfg : Config) (Meets : State → Step → Prop) : State → List Step → Prop
  | _, [] => True
  | s, x :: rest => Meets s x ∧ Admitted cfg Meets (step cfg s x) rest

instance Admitted.decidable (cfg : Config) (Meets : State → Step → Prop)
    [∀ s x, Decidable (Meets s x)] (s : State) (steps : List Step) :
    Decidable (Admitted cfg Meets s steps) :=
  match steps with
  | [] => .isTrue trivial
  | x :: rest =>
    have := Admitted.decidable cfg Meets (step cfg s x) rest
    inferInstanceAs (Decidable (_ ∧ _))

variable {cfg : Config}

lemma run_invariant (Inv : State → Prop)
    (hstep : ∀ s x, Inv s → Inv (step cfg s x)) (h : Inv s) (steps : List Step) : Inv (run cfg s steps) :=
  Runs.invariant Inv hstep h steps

lemma run_induction (Inv : State → Prop) {Meets : State → Step → Prop}
    (hstep : ∀ s x, Inv s → Meets s x → Inv (step cfg s x)) {steps : List Step}
    (h : Inv s) (hm : Admitted cfg Meets s steps) : Inv (run cfg s steps) := by
  induction steps generalizing s with
  | nil => exact h
  | cons x rest ih => exact ih (hstep s x h hm.1) hm.2

open Text Access Model Option DataObject

/-- The identity of a block is made from names without a NUL. -/
structure RcbState.Named (rs : RcbState) : Prop where
  item : rs.item = rs.lnName ++ "$" ++ rs.fc.asStr ++ "$" ++ rs.objectName
  domain : '\x00' ∉ rs.domain.toList
  plain : '\x00' ∉ rs.item.toList

variable {rs : RcbState} {domain item attr : String} {m : Model} {rest : List String}

lemma parseLenient_fc (rs : RcbState) : Fc.parseLenient rs.fc.asStr = rs.fc := by
  cases hb : rs.buffered <;> simp only [RcbState.fc, hb] <;> decide

lemma rcbStateKey_inj (hn : rs.Named) (h : rcbStateKey domain item = rs.key) : domain = rs.domain ∧ item = rs.item :=
  append_inj rfl h hn.domain hn.plain

lemma split_of_joined {ln fc name ln' fc' name' : String} (hsp : split '$' item = ln :: fc :: name :: rest)
    (h : ln ++ "$" ++ fc ++ "$" ++ name = ln' ++ "$" ++ fc' ++ "$" ++ name') (hfc : '$' ∉ fc'.toList) :
    split '$' item = ln' :: fc' :: name' :: rest := by
  have hpiece (p : String) (hp : p ∈ ln :: fc :: name :: rest) : '$' ∉ p.toList := not_mem_of_mem_split (hsp ▸ hp)
  obtain ⟨hln, hfc', hnm⟩ := pieces_inj rfl h (hpiece ln (by simp)) (hpiece fc (by simp))
    (hpiece name (by simp)) hfc
  rw [hsp, hln, hfc', hnm]

lemma rcbKey_own (hn : rs.Named) (h : rcbKey domain item = some (rs.key, attr)) :
    domain = rs.domain ∧ ∃ rest, attr = rest.headD "" ∧
      split '$' item = rs.lnName :: rs.fc.asStr :: rs.objectName :: rest := by
  unfold rcbKey at h
  split at h
  next ln fc name rest hsp =>
    split at h
    · obtain ⟨hkey, hat⟩ : rcbStateKey domain (ln ++ "$" ++ fc ++ "$" ++ name) = rs.key ∧
          rest.headD "" = attr := by simpa using h
      obtain ⟨hd, hi⟩ := rcbStateKey_inj hn hkey
      have hfc : '$' ∉ rs.fc.asStr.toList := by
        cases hb : rs.buffered <;> simp only [RcbState.fc, hb] <;> decide
      exact ⟨hd, rest, hat.symm, split_of_joined hsp (hi.trans hn.item) hfc⟩
    · cases h
  · cases h

variable {changes ch : ChangeSet} {v : Value} {controlBlock : Bool} {refusal : Option DataAccessError}
  {m' : Model} {da : DataAttribute}

lemma typeOf_of_valueFits {cur : Value} (h : valueFits da v)
    (hcur : da.value = some cur) (hne : cur.typeOf ≠ .none) : v.typeOf = cur.typeOf := by
  by_contra hty
  unfold valueFits at h
  rw [hcur, map_some, some_or] at h
  split at h
  · next hk => cases hk
  · next hk => exact hne (some.inj hk)
  next want _ hk =>
  obtain rfl : cur.typeOf = want := some.inj hk
  rw [if_pos hty] at h
  cases h

lemma storeItem_ok {permitted : Fc → Except DataAccessError Unit}
    (h : storeItem permitted m changes domain item v controlBlock refusal = .ok (m', ch)) :
    ∃ ln da, m.node domain ((split '$' item).headD "") = some ln ∧ resolveWrite ln item = some da ∧
      (controlBlock = false → permitted da.fc = .ok ()) ∧ valueFits da v ∧ refusal = none ∧
      m' = putItem m domain item v := by
  unfold storeItem at h
  split at h
  · cases h
  next ln hln =>
  split at h
  · cases h
  next da hda =>
  refine ⟨ln, da, hln, hda, ?_⟩
  cases hc : controlBlock <;> cases hp : permitted da.fc <;>
    cases hv : valueFits da v <;> cases refusal <;>
    simp_all [bind, Except.bind, pure, Except.pure]

variable {o : DataObject} {fc : Fc}

lemma writeBelow_rcbObject {first : String} (ho : RcbObject rs o)
    (h : writeBelow fc (first :: rest) o = some da) : rest = [] := by
  rcases rest with _ | ⟨name, rest⟩
  · rfl
  -- The block has no sub-objects, and its attributes have no children.
  simp only [writeBelow, child, ho.objects, find?_nil] at h
  obtain ⟨a, ha, hd⟩ := bind_eq_some_iff.mp h
  have hm := mem_of_find?_eq_some ha
  simp [DataAttribute.descend, DataAttribute.child, (ho.attributes a hm).2.1] at hd

lemma putItem_rcb (hm : m.object rs.domain rs.lnName rs.objectName = some o) (ho : RcbObject rs o)
    (hsp : split '$' item = [rs.lnName, rs.fc.asStr, rs.objectName, attr]) :
    putItem m rs.domain item v = setAttr m rs attr v := by
  have hpath : writePath item = some (rs.objectName, rs.fc, [attr]) := by
    simp [writePath, hsp, parseLenient_fc]
  rw [putItem, hpath, hsp]
  refine objectMut_congr m ?_
  intro x hx
  obtain rfl : x = o := some_inj.mp (hx.symm.trans hm)
  have hsm := FirstMatch.update_congr (p := fun a => a.name == attr && a.fc == rs.fc)
    (q := fun a => a.name == attr) (f := fun a => { a with value := some v }) (l := x.attributes) ?_
  · rw [writeBelowMut, setObjectAttr, hsm]
  · intro a ha
    simp [(ho.attributes a ha).1]

lemma putItem_of_resolved {ln : LogicalNode} (hs : Shaped m rs) (hn : rs.Named)
    (hkey : rcbKey domain item = some (rs.key, attr))
    (hln : m.node domain ((split '$' item).headD "") = some ln) (hda : resolveWrite ln item = some da) :
    putItem m domain item v = setAttr m rs attr v ∧
      ∃ o, m.object rs.domain rs.lnName rs.objectName = some o ∧ o.attr attr = some da := by
  obtain ⟨o, ho, hobj⟩ := hs
  obtain ⟨rfl, rest, hat, hsp⟩ := rcbKey_own hn hkey
  rw [hsp, headD_cons] at hln
  have hobject : ln.object rs.objectName = some o := by
    rw [object, hln] at ho
    exact ho
  unfold resolveWrite writePath at hda
  rw [hsp] at hda
  rcases rest with _ | ⟨first, rest⟩
  · simp at hda
  simp only [bind_some, hobject, parseLenient_fc] at hda
  obtain ⟨hda, -⟩ := filter_eq_some_iff.mp hda
  obtain rfl := writeBelow_rcbObject hobj hda
  obtain rfl : attr = first := hat
  refine ⟨putItem_rcb ho hobj hsp, o, ho, ?_⟩
  rw [← hda, writeBelow, DataObject.attr]
  apply find?_congr
  intro a ha
  simp [(hobj.attributes a ha).1]

lemma store_rcb (hs : Shaped m rs) (hn : rs.Named) (hkey : rcbKey domain item = some (rs.key, attr))
    (h : store cfg m changes domain item v true refusal = .ok (m', ch)) :
    m' = setAttr m rs attr v ∧ ∃ o da, m.object rs.domain rs.lnName rs.objectName = some o ∧
      o.attr attr = some da ∧ valueFits da v := by
  obtain ⟨ln, da, hln, hda, -, hfits, -, rfl⟩ := storeItem_ok h
  obtain ⟨hput, o, ho, hat⟩ := putItem_of_resolved hs hn hkey hln hda
  exact ⟨hput, o, da, ho, hat, hfits⟩

def writeSite (domain item : String) : Option (String × String × String) :=
  (writePath item).map fun p => (domain, (split '$' item).headD "", p.1)

lemma writeSite_of_path {object : String} {path : List String} (domain : String)
    (h : writePath item = some (object, fc, path)) :
    writeSite domain item = some (domain, (split '$' item).headD "", object) := by
  rw [writeSite, h]
  rfl

def assignSite (r : ObjectReference) : Option (String × String × String) :=
  match r.path with
  | ln :: object :: _ => some (r.ld, ln, object)
  | _ => none

/-- The model changes beside a block: its own object is the same, and so is the data set it names. -/
structure Beside (render : Render) (rs : RcbState) (m m' : Model) : Prop where
  object : m'.object rs.domain rs.lnName rs.objectName = m.object rs.domain rs.lnName rs.objectName
  dataSet : ∀ members, resolveDataSet m (attrText render m rs "DatSet") = some members →
    resolveDataSet m' (attrText render m rs "DatSet") = some members

variable {render : Render}

lemma Beside.refl : Beside render rs m m := ⟨rfl, fun _ h => h⟩

lemma Beside.attrValue (h : Beside render rs m m') (name : String) : attrValue m' rs name = attrValue m rs name := by
  rw [Server.attrValue, h.object, Server.attrValue]

lemma Beside.trans {m'' : Model} (h : Beside render rs m m') (h' : Beside render rs m' m'') :
    Beside render rs m m'' := by
  refine ⟨h'.object.trans h.object, ?_⟩
  intro members hm
  have htx : attrText render m' rs "DatSet" = attrText render m rs "DatSet" := by
    rw [attrText, h.attrValue, attrText]
  have hnx := h'.dataSet members
  rw [htx] at hnx
  exact hnx (h.dataSet members hm)

variable {d l list : String} {ln : LogicalNode}

lemma beside_objectMut {o : String} {f : DataObject → DataObject}
    (hf : ∀ x, (f x).name = x.name) (hne : rs.path ≠ (d, l, o)) : Beside render rs m (m.objectMut d l o f) := by
  refine ⟨object_objectMut_other m hf hne, ?_⟩
  intro members hm
  rw [resolveDataSet_congr fun d' l' ds => dataSet_objectMut m d' l' ds]
  exact hm

lemma beside_putItem (h : writeSite domain item ≠ some rs.path) : Beside render rs m (putItem m domain item v) := by
  rw [putItem]
  split
  · exact .refl
  next object fc path hpath =>
  apply beside_objectMut (writeBelowMut_name path)
  intro heq
  apply h
  rw [writeSite, hpath, heq]
  rfl

lemma beside_setAll (render : Render) {sets : Assignments} (tx : Tx)
    (h : ∀ a ∈ sets, assignSite a.1 ≠ some rs.path) : Beside render rs tx.model (tx.setAll sets).model := by
  induction sets generalizing tx with
  | nil => exact .refl
  | cons a rest ih =>
    have hsite := h a mem_cons_self
    have hfst : Beside render rs tx.model (tx.set a.1 a.2.1 a.2.2).model := by
      unfold Tx.set
      split
      · exact .refl
      split
      · dsimp only
        unfold setAttribute
        split
        next ln object path hpath =>
          apply beside_objectMut (attributeMut_name path)
          intro heq
          apply hsite
          rw [assignSite, hpath, heq]
        · exact .refl
      · exact .refl
    exact hfst.trans (ih _ fun a' ha' => h a' (mem_cons_of_mem _ ha'))

lemma fc_of_site (hs : Shaped m rs) (hln : m.node domain ((split '$' item).headD "") = some ln)
    (hda : resolveWrite ln item = some da) (hsite : writeSite domain item = some rs.path) : da.fc = rs.fc := by
  obtain ⟨o, ho, hobj⟩ := hs
  obtain ⟨⟨object, fc, path⟩, hpath, heq⟩ := map_eq_some_iff.mp hsite
  obtain ⟨rfl, hhead, rfl⟩ := triple_inj heq
  rw [object, ← hhead, hln] at ho
  rw [resolveWrite, hpath] at hda
  simp only [bind_some, show ln.object rs.objectName = some o from ho] at hda
  obtain ⟨hda, -⟩ := filter_eq_some_iff.mp hda
  cases path with
  | nil => simp [writeBelow] at hda
  | cons first rest =>
    obtain rfl := writeBelow_rcbObject hobj hda
    exact (hobj.attributes da (mem_of_find?_eq_some hda)).1

lemma writable_of_site (hs : Shaped m rs) (hln : m.node domain ((split '$' item).headD "") = some ln)
    (hda : resolveWrite ln item = some da) (hpm : writePermitted cfg da.fc = .ok ())
    (hsite : writeSite domain item = some rs.path) : rs.fc ∈ writableFcs cfg.writable := by
  rw [← fc_of_site hs hln hda hsite]
  unfold writePermitted at hpm
  split at hpm
  · cases hpm
  · next hm => exact not_not.mp hm

lemma resolveDataSet_eq_some {reference : String} {members : List DsMember} :
    resolveDataSet m reference = some members ↔ ∃ d list l ds x,
      splitOnce '/' reference = some (d, list) ∧ splitOnce '$' list = some (l, ds) ∧
      ((m.node d l).bind fun n => n.dataSet ds) = some x ∧
      members = x.entries.map fun e => ⟨(e.reference.toMms e.fc).1, (e.reference.toMms e.fc).2⟩ := by
  constructor
  · intro h
    obtain ⟨⟨d, list⟩, hd, h⟩ := bind_eq_some_iff.mp h
    obtain ⟨⟨l, ds⟩, hl, h⟩ := bind_eq_some_iff.mp h
    obtain ⟨x, hx, h⟩ := map_eq_some_iff.mp h
    refine ⟨d, list, l, ds, x, hd, hl, hx, ?_⟩
    rw [← h, datasetMembers]
    simp only [hl, hx]
  · rintro ⟨d, list, l, ds, x, hd, hl, hx, rfl⟩
    simp only [resolveDataSet, hd, bind_some, hl, hx, map_some, datasetMembers]

lemma beside_nodeMut {f : LogicalNode → LogicalNode}
    (hf : ∀ n, (f n).name = n.name) (ho : ∀ n, (f n).objects = n.objects)
    (hk : ∀ list ds n x, splitOnce '/' (attrText render m rs "DatSet") = some (d, list) →
      splitOnce '$' list = some (l, ds) → n.dataSet ds = some x → (f n).dataSet ds = some x) :
    Beside render rs m (m.nodeMut d l f) := by
  refine ⟨object_nodeMut m hf ho _ _ _, ?_⟩
  intro members hm
  obtain ⟨d', list, l', ds, x, hd, hl, hx, hmem⟩ := resolveDataSet_eq_some.mp hm
  refine resolveDataSet_eq_some.mpr ⟨d', list, l', ds, x, hd, hl, ?_, hmem⟩
  by_cases hn : d' = d ∧ l' = l
  · obtain ⟨rfl, rfl⟩ := hn
    obtain ⟨n, hn, hx⟩ := bind_eq_some_iff.mp hx
    rw [node_nodeMut_same m d' l' hf, hn]
    exact hk list ds n x hd hl hx
  · rw [node_nodeMut_other m hf fun h1 h2 => hn ⟨h1, h2⟩]
    exact hx

lemma defineNvl_cases (m : Model) (domain list : String) (items : List (String × String)) :
    defineNvl m domain list items = m ∨ ∃ ln x, defineNvl m domain list items =
      m.nodeMut domain ln fun n => { n with dataSets := n.dataSets ++ [x] } := by
  unfold defineNvl
  split
  · exact .inl rfl
  split
  · exact .inl rfl
  split
  · exact .inl rfl
  · exact .inr ⟨_, _, rfl⟩

lemma beside_defineNvl {items : List (String × String)} : Beside render rs m (defineNvl m domain list items) := by
  rcases defineNvl_cases m domain list items with h | ⟨ln, x, h⟩
  · rw [h]
    exact .refl
  rw [h]
  refine beside_nodeMut (fun _ => rfl) (fun _ => rfl) ?_
  -- A new data set comes after those there are.
  intro list' ds' n x _ _ hx
  simp only [LogicalNode.dataSet] at hx ⊢
  rw [find?_append, hx]
  rfl

lemma beside_deleteDataset {blocks : List Block} (hb : b ∈ blocks) :
    Beside render b.rs m (deleteDataset render m blocks domain list) := by
  unfold deleteDataset
  split
  · exact .refl
  next ln ds _ =>
  split
  · exact .refl
  split
  · exact .refl
  next huse =>
  apply beside_nodeMut
  · intro n
    rfl
  · intro n
    rfl
  intro list' ds' n x hd hl hx
  -- The data set deleted is not the one the block names, which is in use.
  have hne : ds' ≠ ds := by
    rintro rfl
    apply huse
    have href : attrText render m b.rs "DatSet" = domain ++ "/" ++ ln ++ "$" ++ ds' := by
      rw [eq_of_splitOnce (t := "/") rfl hd, eq_of_splitOnce (t := "$") rfl hl]
      simp [String.append_assoc]
    have hany : (blocks.any fun b => attrText render m b.rs "DatSet" ==
        domain ++ "/" ++ ln ++ "$" ++ ds') :=
      any_eq_true.mpr ⟨b, hb, by simp [href]⟩
    simp [dataSetInUse, hany]
  simp only [LogicalNode.dataSet] at hx ⊢
  rw [← hx, find?_filter]
  apply find?_congr
  intro y _
  by_cases hy : y.name = ds' <;> simp [hy, hne]

end Iec61850.Server

namespace Iec61850.Server
open Mms Block List

/-- Two blocks have their attributes in different objects. -/
def Apart (rs rs' : RcbState) : Prop := rs.path ≠ rs'.path

instance : Std.Symm Apart := ⟨fun _ _ h => Ne.symm h⟩

structure Placed (l : List RcbState) : Prop where
  apart : l.Pairwise Apart
  keys : (l.map RcbState.key).Nodup
  named : ∀ rs ∈ l, rs.Named

structure Sited (s : State) : Prop where
  placed : Placed (s.blocks.map rs)
  shaped : ∀ b ∈ s.blocks, Shaped s.model b.rs

/-- Nothing but a write to a report control block reaches its attributes. -/
def Respects (cfg : Config) (s : State) : Step → Prop
  | .write _ domain item _ _ _ => rcbKey domain item = none → ∀ b ∈ s.blocks,
    b.rs.fc ∉ writableFcs cfg.writable ∨ writeSite domain item ≠ some b.rs.path
  | .operate _ sets => ∀ a ∈ sets, ∀ b ∈ s.blocks, assignSite a.1 ≠ some b.rs.path
  | .update sets _ _ => ∀ a ∈ sets, ∀ b ∈ s.blocks, assignSite a.1 ≠ some b.rs.path
  | _ => True

instance (cfg : Config) (s : State) (x : Step) : Decidable (Respects cfg s x) := by
  cases x <;> unfold Respects <;> infer_instance

variable {s : State} {b : Block} {key : String} {f : RcbState → Work → Work}

lemma runBlocks_of_ne {bs : List Block} {g : Engine} (h : ∀ b ∈ bs, b.rs.key ≠ key) :
    runBlocks (fun rs w => if rs.key = key then f rs w else w) bs g = (g, bs) := by
  induction bs generalizing g with
  | nil => rfl
  | cons b rest ih =>
    have hb := h b mem_cons_self
    rw [runBlocks]
    simp only [hb, if_false]
    rw [show (b.work g).toEngine = g from rfl, ih fun b' hb' => h b' (mem_cons_of_mem _ hb')]
    rfl

lemma runBlocks_append (f : RcbState → Work → Work) (l l' : List Block) (g : Engine) :
    runBlocks f (l ++ l') g = ((runBlocks f l' (runBlocks f l g).1).1,
      (runBlocks f l g).2 ++ (runBlocks f l' (runBlocks f l g).1).2) := by
  induction l generalizing g with
  | nil => rfl
  | cons b rest ih =>
    rw [cons_append, runBlocks, ih]
    rfl

lemma onBlock_eq {before after : List Block} (hs : s.blocks = before ++ b :: after)
    (hkey : b.rs.key = key) (hn : (s.blocks.map fun b => b.rs.key).Nodup) : s.onBlock key f = { s with
      toEngine := (f b.rs (b.work s.toEngine)).toEngine
      blocks := before ++ b.after (f b.rs (b.work s.toEngine)) :: after } := by
  rw [hs, map_append, map_cons, nodup_append] at hn
  obtain ⟨-, haft, hbef⟩ := hn
  have hb : ∀ b' ∈ before, b'.rs.key ≠ key := by
    intro b' hb'
    rw [← hkey]
    exact hbef _ (mem_map_of_mem hb') _ mem_cons_self
  have ha : ∀ b' ∈ after, b'.rs.key ≠ key := by
    intro b' hb' heq
    apply (nodup_cons.mp haft).1
    rw [hkey, ← heq]
    exact mem_map_of_mem hb'
  rw [State.onBlock, State.onBlocks, hs, runBlocks_append, runBlocks_of_ne hb, runBlocks]
  simp only [hkey, if_true]
  rw [runBlocks_of_ne ha]

lemma onBlock_one {R : RcbState → RcbState → Prop} [Std.Symm R] {P : Engine → Block → Prop}
    (hP : Undisturbed R P) (hR : s.blocks.Pairwise fun b b' => R b.rs b'.rs)
    (hn : (s.blocks.map fun b => b.rs.key).Nodup) (hb : b ∈ s.blocks) (hkey : b.rs.key = key)
    (hfr : Frame servedAttrs b.rs (b.work s.toEngine) (f b.rs (b.work s.toEngine)))
    (hf : P (f b.rs (b.work s.toEngine)).toEngine (b.after (f b.rs (b.work s.toEngine))))
    (h : ∀ b' ∈ s.blocks, b'.rs.key ≠ key → P s.toEngine b') :
    ∀ b' ∈ (s.onBlock key f).blocks, P (s.onBlock key f).toEngine b' := by
  obtain ⟨before, after, hs⟩ := append_of_mem hb
  rw [onBlock_eq hs hkey hn]
  rw [hs, map_append, map_cons, nodup_append] at hn
  rw [hs, pairwise_append] at hR
  obtain ⟨-, haft, hbef⟩ := hn
  obtain ⟨-, hcons, hcross⟩ := hR
  have hrs (b' : Block) (hb' : b' ∈ s.blocks) (hne : b'.rs.key ≠ key) (hr : R b'.rs b.rs) :
      P (f b.rs (b.work s.toEngine)).toEngine b' :=
    hP.other _ b.rs (b.work s.toEngine) _ b' hfr hr (h b' hb' hne)
  intro b' hb'
  rcases mem_append.mp hb' with hb' | hb'
  · have hne : b'.rs.key ≠ key := by
      rw [← hkey]
      exact hbef _ (mem_map_of_mem hb') _ mem_cons_self
    exact hrs b' (by simp [hs, hb']) hne (hcross _ hb' _ mem_cons_self)
  rcases mem_cons.mp hb' with rfl | hb'
  · exact hf
  have hne : b'.rs.key ≠ key := by
    intro heq
    apply (nodup_cons.mp haft).1
    rw [hkey, ← heq]
    exact mem_map_of_mem hb'
  have hr : R b.rs b'.rs := (pairwise_cons.mp hcons).1 _ hb'
  exact hrs b' (by simp [hs, hb']) hne (Std.Symm.symm _ _ hr)

variable {cfg : Config} {x : Step} {P : Engine → Block → Prop}

/-- How a step changes the model outside the work of the blocks. -/
inductive Altered (cfg : Config) (s : State) : Step → Model → Prop where
  | foreign {conn : ConnId} {domain item : String} {v : Value} {refusal : Option DataAccessError}
      {now : SystemTime} {m : Model} {ch : ChangeSet} (hkey : rcbKey domain item = none)
      (hsto : store cfg s.model ((s.changes.lookup conn).getD ∅) domain item v false refusal =
        .ok (m, ch)) : Altered cfg s (.write conn domain item v refusal now) m
  | operate {conn : ConnId} {sets : Assignments} : Altered cfg s (.operate conn sets)
      (Tx.setAll { model := s.model, changed := (s.changes.lookup conn).getD ∅ } sets).model
  | update {sets : Assignments} {now : SystemTime} {onRuntime : Bool} :
      Altered cfg s (.update sets now onRuntime) (Tx.setAll { model := s.model } sets).model
  | define {domain list : String} {items : List (String × String)} :
      Altered cfg s (.defineDataSet domain list items) (defineNvl s.model domain list items)
  | delete {domain list : String} :
      Altered cfg s (.deleteDataSet domain list) (deleteDataset cfg.render s.model s.blocks domain list)

/-- What holds of a block is kept by all but writes to it and ends of associations. `B` is what other changes
of the model have to respect. -/
structure BlockRule (R : RcbState → RcbState → Prop) (B : RcbState → Model → Model → Prop)
    (cfg : Config) (P : Engine → Block → Prop) : Prop where
  undisturbed : Undisturbed R P
  beside : ∀ g m b, B b.rs g.model m → P g b → P { g with model := m } b
  update : ∀ now onRuntime changes, Keeps P (onUpdateBlock (cfg.ctx now onRuntime) changes)
  window : ∀ now generation, Keeps P (windowTask (cfg.ctx now true) generation)
  reservation : ∀ generation, Keeps P (reservationTask generation)
  integrity : ∀ now generation, Keeps P (integrityTask (cfg.ctx now true) generation)

def State.ipOf (s : State) (conn : ConnId) : Option IpAddr :=
  peerIp ((s.conns.lookup conn).bind ServerConn.peer)

/-- A client's write to an attribute of a block that passes the block's check and is stored. -/
structure RcbWrite (cfg : Config) (s : State) (x : Step) (b : Block) (attr : String) (v : Value)
    (conn : ConnId) (now : SystemTime) (m : Model) : Prop where
  mem : b ∈ s.blocks
  known : (s.conns.lookup conn).isSome = true
  check : checkRcbWrite (cfg.ctx now true) s.model b.rs b.st attr v conn (s.ipOf conn) = .ok ()
  stored : ∃ domain item refusal ch, x = .write conn domain item v refusal now ∧
    rcbKey domain item = some (b.rs.key, attr) ∧
    store cfg s.model ((s.changes.lookup conn).getD ∅) domain item v true refusal = .ok (m, ch)

def Block.written (b : Block) (s : State) (m : Model) : Work := { b.work s.toEngine with model := m }

/-- The work that a step gives to the blocks, and the state in which it begins. -/
inductive Duty (cfg : Config) (s : State) : Step → State → (RcbState → Work → Work) → Prop where
  | write {x : Step} {b : Block} {attr : String} {v : Value} {conn : ConnId} {now : SystemTime} {m : Model}
      (hw : RcbWrite cfg s x b attr v conn now m) : Duty cfg s x { s with model := m }
        fun rs w => if rs.key = b.rs.key then onRcbWrite (cfg.ctx now true) attr v conn (s.ipOf conn) rs w else w
  | written {conn : ConnId} {now : SystemTime} {changes : ChangeSet} :
      Duty cfg s (.reportWritten conn now) { s with changes := s.changes.erase conn }
        (onUpdateBlock (cfg.ctx now true) changes)
  | update {sets : Assignments} {now : SystemTime} {onRuntime : Bool} :
      Duty cfg s (.update sets now onRuntime) { s with model := (Tx.setAll { model := s.model } sets).model }
        (onUpdateBlock (cfg.ctx now onRuntime) (Tx.setAll { model := s.model } sets).changed)
  | window {key : String} {generation : ℕ} {now : SystemTime} : Duty cfg s (.fire (.window key generation) now)
      { s with tasks := s.tasks.erase (.window key generation) }
      fun rs w => if rs.key = key then windowTask (cfg.ctx now true) generation rs w else w
  | reservation {key : String} {generation : ℕ} {now : SystemTime} :
      Duty cfg s (.fire (.reservation key generation) now)
        { s with tasks := s.tasks.erase (.reservation key generation) }
        fun rs w => if rs.key = key then reservationTask generation rs w else w
  | integrity {key : String} {generation : ℕ} {now : SystemTime} :
      Duty cfg s (.fire (.integrity key generation) now) s
        fun rs w => if rs.key = key then integrityTask (cfg.ctx now true) generation rs w else w
  | ended {conn : ConnId} {now : SystemTime} {sc : ServerConn} (known : s.conns.lookup conn = some sc) :
      Duty cfg s (.endAssociation conn now)
        { s with conns := s.conns.erase conn, changes := s.changes.erase conn }
        (disableConnBlock (cfg.ctx now true) conn)

variable {st : State}

lemma Duty.blocks (h : Duty cfg s x st f) : st.blocks = s.blocks := by
  cases h <;> rfl

lemma Duty.frame (h : Duty cfg s x st f) (rs : RcbState) (w : Work) : Frame servedAttrs rs w (f rs w) := by
  cases h with
  | write => exact onRcbWrite_frame.ite
  | written | update => exact onUpdateBlock_frame.emitted
  | window => exact windowTask_frame.ite
  | reservation => exact reservationTask_frame.ite
  | integrity => exact integrityTask_frame.ite
  | ended => exact disableConnBlock_frame

@[elab_as_elim]
lemma step_rule {Q : State → Prop} (hquiet : x.isQuiet → Q (step cfg s x))
    (hidle : ∀ changes, Q { s with changes := changes })
    (haltered : ∀ m changes, Altered cfg s x m → Q { s with model := m, changes := changes })
    (hwork : ∀ st f, Duty cfg s x st f → Q (st.onBlocks f)) : Q (step cfg s x) := by
  have hrs : Q s := hidle s.changes
  cases hq : x.isQuiet with
  | true => exact hquiet hq
  | false =>
    cases x with
    | write conn domain item v refusal now =>
      rw [step]
      split
      · exact hrs
      next sc hsc =>
      split
      · rcases writeOne_cases cfg (cfg.ctx now true) conn domain item v refusal s with
          heq | ⟨key, attr, b, m, ch, hkey, hb, hchk, hsto, heq⟩ | ⟨hkey, m, ch, hsto, heq⟩ <;> rw [heq]
        · exact hrs
        · obtain rfl : b.rs.key = key := by simpa using find?_some hb
          exact hwork _ _ (.write ⟨mem_of_find?_eq_some hb, Option.isSome_of_eq_some hsc, hchk, domain,
            item, refusal, ch, rfl, hkey, hsto⟩)
        · exact haltered _ _ (.foreign hkey hsto)
      · exact hrs
    | operate conn sets =>
      rw [step]
      split
      · exact hrs
      · exact haltered _ _ .operate
    | reportWritten conn now =>
      rw [step]
      split
      · exact hrs
      unfold reportChanges
      split
      · exact hidle _
      · exact hwork _ _ .written
    | update sets now onRuntime =>
      dsimp only [step, reportChanges]
      split
      · exact haltered _ s.changes .update
      · exact hwork _ _ .update
    | defineDataSet domain list items => exact haltered _ s.changes .define
    | deleteDataSet domain list => exact haltered _ s.changes .delete
    | fire task now =>
      rw [step]
      split
      · cases task with
        | window => exact hwork _ _ .window
        | reservation => exact hwork _ _ .reservation
        | integrity => exact hwork _ _ .integrity
      · exact hrs
    | endAssociation conn now =>
      rw [step]
      split
      · exact hrs
      next sc hsc =>
      split
      · exact hrs
      · exact hwork _ _ (.ended hsc)
    | _ => cases hq

lemma step_rs (cfg : Config) (s : State) (x : Step) : (step cfg s x).blocks.map rs = s.blocks.map rs := by
  refine step_rule ?_ (fun _ => rfl) (fun _ _ _ => rfl) ?_
  · intro hq
    rw [(step_quiet cfg s hq).1]
  · intro st f h
    rw [onBlocks_rs, h.blocks]

lemma keys_nodup_step (hn : (s.blocks.map fun b => b.rs.key).Nodup) :
    ((step cfg s x).blocks.map fun b => b.rs.key).Nodup := by
  have hkeys (s : State) : s.blocks.map (fun b => b.rs.key) = (s.blocks.map rs).map RcbState.key := by
    rw [map_map]
    rfl
  rw [hkeys, step_rs, ← hkeys]
  exact hn

variable {R : RcbState → RcbState → Prop} {B : RcbState → Model → Model → Prop}

/-- The property holds of every block once the end of an association has been served. -/
def HoldsAtEnd (cfg : Config) (s : State) (x : Step) (P : Engine → Block → Prop) : Prop :=
  ∀ conn now sc, x = .endAssociation conn now → s.conns.lookup conn = some sc →
    let s' := ({ s with conns := s.conns.erase conn, changes := s.changes.erase conn } : State).onBlocks
      (disableConnBlock (cfg.ctx now true) conn)
    ∀ b ∈ s'.blocks, P s'.toEngine b

lemma step_forall [Std.Symm R] (hrule : BlockRule R B cfg P)
    (hR : s.blocks.Pairwise fun b b' => R b.rs b'.rs) (hn : (s.blocks.map fun b => b.rs.key).Nodup)
    (hB : ∀ m, Altered cfg s x m → ∀ b ∈ s.blocks, B b.rs s.model m)
    (hwrite : ∀ b attr v conn now m, RcbWrite cfg s x b attr v conn now m →
      (∀ b' ∈ s.blocks, b'.rs.key ≠ b.rs.key → B b'.rs s.model m) ∧
      let w := onRcbWrite (cfg.ctx now true) attr v conn (s.ipOf conn) b.rs (b.written s m)
      P w.toEngine (b.after w))
    (hend : HoldsAtEnd cfg s x P)
    (h : ∀ b ∈ s.blocks, P s.toEngine b) :
    ∀ b ∈ (step cfg s x).blocks, P (step cfg s x).toEngine b := by
  have hbeside {m : Model} (hm : Altered cfg s x m) (b : Block) (hb : b ∈ s.blocks) :
      P { s.toEngine with model := m } b := hrule.beside s.toEngine m b (hB m hm b hb) (h b hb)
  have hlater {tasks : List Task} (b : Block) (hb : b ∈ s.blocks) : P { s.toEngine with tasks := tasks } b :=
    hrule.undisturbed.aside s.toEngine _ b ⟨rfl, fun _ h => h, le_rfl⟩ (h b hb)
  have hu := hrule.undisturbed
  refine step_rule ?_ (fun _ => h) (fun _ _ hm => hbeside hm) ?_
  · intro hq
    obtain ⟨hb, -, ha⟩ := step_quiet cfg s hq
    rw [hb]
    exact fun b hmem => hu.aside _ _ b ha (h b hmem)
  intro st f hd
  cases hd with
  | write hw =>
    obtain ⟨hoths, hown⟩ := hwrite _ _ _ _ _ _ hw
    refine onBlock_one hu hR hn hw.mem rfl onRcbWrite_frame hown ?_
    intro b' hb' hne
    exact hrule.beside s.toEngine _ b' (hoths b' hb' hne) (h b' hb')
  | written =>
    exact onBlocks_forall hu hu (fun _ _ => onUpdateBlock_frame.emitted) (hrule.update _ _ _) hR h
  | update =>
    exact onBlocks_forall hu hu (fun _ _ => onUpdateBlock_frame.emitted) (hrule.update _ _ _) hR (hbeside .update)
  | window =>
    exact onBlock_keeps hu (fun _ _ => windowTask_frame) (hrule.window _ _) hR hlater
  | reservation =>
    exact onBlock_keeps hu (fun _ _ => reservationTask_frame) (hrule.reservation _) hR hlater
  | integrity => exact onBlock_keeps hu (fun _ _ => integrityTask_frame) (hrule.integrity _ _) hR h
  | ended hsc => exact hend _ _ _ rfl hsc

/-- The model may change in any way, for what holds of a block whatever the model is. -/
def anyChange (_ : RcbState) (_ _ : Model) : Prop := True

lemma Placed.keys_nodup (h : Placed (s.blocks.map rs)) : (s.blocks.map fun b => b.rs.key).Nodup := by
  have hk := h.keys
  rw [map_map] at hk
  exact hk

lemma beside_of_altered (hs : Sited s) (hx : Respects cfg s x) {m : Model} (h : Altered cfg s x m)
    (hb : b ∈ s.blocks) : Beside cfg.render b.rs s.model m := by
  cases h with
  | foreign hkey hsto =>
    obtain ⟨ln, da, hln, hda, hpm, -, -, rfl⟩ := storeItem_ok hsto
    apply beside_putItem
    rcases hx hkey b hb with hfc | hsite
    · -- The policy refuses to write the attributes of the block.
      intro hsite
      exact hfc (writable_of_site (hs.shaped b hb) hln hda (hpm rfl) hsite)
    · exact hsite
  | operate =>
    exact beside_setAll cfg.render { model := s.model, changed := _ } fun a ha => hx a ha b hb
  | update => exact beside_setAll cfg.render { model := s.model } fun a ha => hx a ha b hb
  | define => exact beside_defineNvl
  | delete => exact beside_deleteDataset hb

lemma RcbWrite.setAttr {attr : String} {v : Value} {conn : ConnId} {now : SystemTime}
    {m : Model} (hw : RcbWrite cfg s x b attr v conn now m) (hs : Sited s) :
    m = Server.setAttr s.model b.rs attr v ∧
      (∃ o da, s.model.object b.rs.domain b.rs.lnName b.rs.objectName = some o ∧
        o.attr attr = some da ∧ valueFits da v) ∧
      ∀ b' ∈ s.blocks, b'.rs.key ≠ b.rs.key → Beside cfg.render b'.rs s.model m := by
  obtain ⟨domain, item, refusal, ch, -, hkey, hsto⟩ := hw.stored
  obtain ⟨rfl, hfits⟩ := store_rcb (hs.shaped b hw.mem) (hs.placed.named _ (mem_map_of_mem hw.mem)) hkey hsto
  refine ⟨rfl, hfits, ?_⟩
  intro b' hb' hne
  refine beside_objectMut (fun _ => rfl) ?_
  have hapart := pairwise_map.mp hs.placed.apart
  exact hapart.forall hb' hw.mem fun heq => hne (by rw [heq])

lemma step_forall_sited (hrule : BlockRule Apart (Beside cfg.render) cfg P) (hs : Sited s) (hx : Respects cfg s x)
    (hwrite : ∀ b attr v conn now m, RcbWrite cfg s x b attr v conn now m →
      let w := onRcbWrite (cfg.ctx now true) attr v conn (s.ipOf conn) b.rs
        (b.written s (setAttr s.model b.rs attr v))
      P w.toEngine (b.after w))
    (hend : HoldsAtEnd cfg s x P)
    (h : ∀ b ∈ s.blocks, P s.toEngine b) :
    ∀ b ∈ (step cfg s x).blocks, P (step cfg s x).toEngine b := by
  refine step_forall hrule (pairwise_map.mp hs.placed.apart) hs.placed.keys_nodup
    (fun m hm b hb => beside_of_altered hs hx hm hb) ?_ hend h
  intro b attr v conn now m hw
  obtain ⟨rfl, -, hoths⟩ := hw.setAttr hs
  exact ⟨hoths, hwrite b attr v conn now _ hw⟩

lemma shaped_undisturbed : Undisturbed Apart fun g b => Shaped g.model b.rs := by
  refine ⟨?_, ?_⟩
  · intro g g' b ha h
    rw [ha.model]
    exact h
  intro names rs w w' b hf hr h
  rw [Shaped, hf.model.other b.rs hr]
  exact h

lemma shaped_rule (cfg : Config) : BlockRule Apart (Beside cfg.render) cfg fun g b => Shaped g.model b.rs where
  undisturbed := shaped_undisturbed
  beside g m b hbeside h := by
    rw [Shaped, hbeside.object]
    exact h
  update _ _ _ _ _ h := onUpdateBlock_frame.model.shaped h
  window _ _ _ _ h := windowTask_frame.model.shaped h
  reservation _ _ _ h := reservationTask_frame.model.shaped h
  integrity _ _ _ _ h := integrityTask_frame.model.shaped h

lemma sited_step (hs : Sited s) (hx : Respects cfg s x) : Sited (step cfg s x) := by
  refine ⟨?_, step_forall_sited (shaped_rule cfg) hs hx ?_ ?_ hs.shaped⟩
  · rw [step_rs]
    exact hs.placed
  · intro b attr v conn now m hw
    exact onRcbWrite_frame.model.shaped (shaped_setAttr _ _ _ (hs.shaped b hw.mem))
  intro conn now sc _ _
  refine onBlocks_forall shaped_undisturbed shaped_undisturbed
    (fun _ _ => disableConnBlock_frame) ?_ (pairwise_map.mp hs.placed.apart) hs.shaped
  intro b g h
  exact disableConnBlock_frame.model.shaped h

open FirstMatch RcbState

variable {m : Model} {bufDefault : ℕ} {runtime : Bool} {s : State}

/-- A block is an instance of a report control of the model. -/
structure Materialised (m : Model) (bufDefault : ℕ) (rs : RcbState) (st : RcbRuntime) : Prop where
  instance_of : ∃ ld ∈ m.devices, ∃ ln ∈ ld.nodes, ∃ rc ∈ ln.reportControls, ∃ i name,
    (rcbInstanceNames rc)[i]? = some name ∧
    (materialiseRcb ld.name ln.name bufDefault rc i name).2 = (rs, st)

lemma materialised_of_mem {k : String} {b : RcbState × RcbRuntime}
    (h : ⟨k, b⟩ ∈ (materialiseRegistry m bufDefault).entries) :
    k = b.1.key ∧ Materialised m bufDefault b.1 b.2 := by
  rcases Table.mem_foldl_insert _ _ h with h | ⟨x, hx, heq⟩
  · simp at h
  obtain ⟨rfl, hb⟩ := Sigma.mk.inj heq
  have hb : b = x.2 := eq_of_heq hb
  subst hb
  obtain ⟨ld, hld, hx⟩ := mem_flatMap.mp hx
  obtain ⟨ln, hln, hx⟩ := mem_flatMap.mp hx
  obtain ⟨rc, hrc, hx⟩ := mem_flatMap.mp hx
  obtain ⟨i, hi, rfl⟩ := mem_mapIdx.mp hx
  exact ⟨rfl, ld, hld, ln, hln, rc, hrc, i, _, getElem?_eq_getElem hi, rfl⟩

/-- A block that has done nothing yet; the configuration may reserve it for an address. -/
def Fresh (st : RcbRuntime) : Prop := ∃ ip, st = { resvIp := ip, resvCfg := ip.isSome }

variable {rs : RcbState} {st : RcbRuntime} {o : DataObject} {b : Block}

lemma Materialised.fresh (h : Materialised m bufDefault rs st) : Fresh st := by
  obtain ⟨_, _, _, _, _, _, _, _, _, heq⟩ := h.instance_of
  rw [materialiseRcb] at heq
  split at heq
  next ip _ =>
    obtain ⟨-, rfl⟩ := Prod.mk.inj heq
    exact ⟨some ip, rfl⟩
  · obtain ⟨-, rfl⟩ := Prod.mk.inj heq
    exact ⟨none, rfl⟩

lemma Started.block (h : Started m bufDefault runtime s) (hb : b ∈ s.blocks) :
    Materialised m bufDefault b.rs b.st ∧ b.trace = [] := by
  obtain ⟨blocks, hp, rfl⟩ := h
  obtain ⟨x, hx, rfl⟩ := mem_map.mp (hp.mem_iff.mp hb)
  exact ⟨(materialised_of_mem hx).2, rfl⟩

lemma Started.keys_nodup (h : Started m bufDefault runtime s) : (s.blocks.map fun b => b.rs.key).Nodup := by
  obtain ⟨blocks, hp, rfl⟩ := h
  have hkeys : (start m bufDefault runtime).blocks.map (fun b => b.rs.key) =
      (materialiseRegistry m bufDefault).keys := by
    rw [start, map_map]
    apply map_congr_left
    intro x hx
    exact (materialised_of_mem hx).1.symm
  rw [(hp.map _).nodup_iff, hkeys]
  exact (materialiseRegistry m bufDefault).keys_nodup

/-- The names in a model tell its devices, the nodes of a device and the objects and blocks of a node
apart, and hold no NUL. -/
@[mk_iff]
structure WellNamed (m : Model) : Prop where
  devices : (m.devices.map LogicalDevice.name).Nodup
  nodes : ∀ ld ∈ m.devices, (ld.nodes.map LogicalNode.name).Nodup
  objects : ∀ ld ∈ m.devices, ∀ ln ∈ ld.nodes,
    (ln.objects.map DataObject.name ++ ln.reportControls.flatMap rcbInstanceNames).Nodup
  plain : ∀ ld ∈ m.devices, '\x00' ∉ ld.name.toList ∧ ∀ ln ∈ ld.nodes, '\x00' ∉ ln.name.toList ∧
    ∀ name ∈ ln.reportControls.flatMap rcbInstanceNames, '\x00' ∉ name.toList

instance (m : Model) : Decidable (WellNamed m) := decidable_of_iff' _ (wellNamed_iff m)

lemma materialiseRcb_name (ldName lnName : String) (rc : ReportControl) (i : ℕ) (name : String) :
    (materialiseRcb ldName lnName bufDefault rc i name).1.name = name := by
  dsimp only [materialiseRcb]
  split <;> rfl

lemma materialiseRcb_rs (bufDefault : ℕ) (ldName lnName : String) (rc : ReportControl) (i : ℕ) (name : String) :
    (materialiseRcb ldName lnName bufDefault rc i name).2.1 =
      { domain := ldName
        item := lnName ++ "$" ++ (if rc.buffered then Fc.br else Fc.rp).asStr ++ "$" ++ name
        lnName := lnName
        objectName := name
        buffered := rc.buffered
        maxBuffer := bufferDepth rc bufDefault } := by
  dsimp only [materialiseRcb]
  split <;> rfl

lemma materialiseNode_names (ldName : String) (ln : LogicalNode) :
    ((materialiseNode ldName bufDefault ln).map Prod.fst).map DataObject.name =
      ln.reportControls.flatMap rcbInstanceNames := by
  rw [materialiseNode, map_map, map_flatMap]
  congr 1
  funext rc
  apply ext_getElem
  · simp
  · intro i h1 h2
    simp [materialiseRcb_name]

lemma object_materialiseModel (hw : WellNamed m) {ld : LogicalDevice} (hld : ld ∈ m.devices)
    {ln : LogicalNode} (hln : ln ∈ ld.nodes)
    (ho : o ∈ ln.objects ++ (materialiseNode ld.name bufDefault ln).map Prod.fst) :
    (materialiseModel m bufDefault).object ld.name ln.name o.name = some o := by
  have hdev := find_of_nodup (hw.devices) hld
  have hnd := find_of_nodup (hw.nodes ld hld) hln
  have hnames : ((ln.objects ++ (materialiseNode ld.name bufDefault ln).map Prod.fst).map
      DataObject.name).Nodup := by
    rw [map_append, materialiseNode_names]
    exact hw.objects ld hld ln hln
  have hobj := find_of_nodup hnames ho
  simp only [Model.object, Model.node, Model.device, materialiseModel, find?_map,
    Function.comp_def, hdev, Option.map_some, Option.bind_some, LogicalDevice.node, hnd,
    LogicalNode.object]
  exact hobj

lemma Started.object (hw : WellNamed m) (h : Started m bufDefault runtime s)
    (hb : b ∈ s.blocks) : ∃ ldName lnName rc i name,
      (materialiseRcb ldName lnName bufDefault rc i name).2 = (b.rs, b.st) ∧
      s.model.object b.rs.domain b.rs.lnName b.rs.objectName =
        some (materialiseRcb ldName lnName bufDefault rc i name).1 := by
  obtain ⟨ld, hld, ln, hln, rc, hrc, i, name, hnm, heq⟩ := (h.block hb).1.instance_of
  refine ⟨ld.name, ln.name, rc, i, name, heq, ?_⟩
  have hrs := materialiseRcb_rs bufDefault ld.name ln.name rc i name
  rw [heq] at hrs
  have hm : (materialiseRcb ld.name ln.name bufDefault rc i name).1 ∈
      (materialiseNode ld.name bufDefault ln).map Prod.fst := by
    apply List.mem_map_of_mem
    refine List.mem_flatMap.mpr ⟨rc, hrc, List.mem_mapIdx.mpr ?_⟩
    obtain ⟨hi, hget⟩ := List.getElem?_eq_some_iff.mp hnm
    exact ⟨i, hi, by rw [hget]⟩
  have hobj := object_materialiseModel hw hld hln (List.mem_append_right _ hm)
  rw [materialiseRcb_name] at hobj
  obtain ⟨blocks, -, rfl⟩ := h
  dsimp only at hrs
  rw [hrs]
  exact hobj

lemma rcbObject_buildRcbObject (ldName lnName : String) (rc : ReportControl) (name : String)
    (rs : RcbState) (hb : rs.buffered = rc.buffered) :
    RcbObject rs (buildRcbObject ldName lnName rc rs.fc name) := by
  unfold buildRcbObject
  cases hr : rc.buffered with
  | true =>
    rw [hr] at hb
    refine ⟨rfl, by simp [rcbAttributes, hb], ?_⟩
    intro a ha
    simp only [if_true, mem_cons, not_mem_nil, or_false] at ha
    rcases ha with rfl | rfl | rfl | rfl | rfl | rfl | rfl | rfl | rfl | rfl | rfl | rfl | rfl | rfl |
      rfl <;> exact ⟨rfl, rfl, rfl⟩
  | false =>
    rw [hr] at hb
    refine ⟨rfl, by simp [rcbAttributes, hb], ?_⟩
    intro a ha
    simp only [Bool.false_eq_true, if_false, mem_cons, not_mem_nil, or_false] at ha
    rcases ha with rfl | rfl | rfl | rfl | rfl | rfl | rfl | rfl | rfl | rfl | rfl <;>
      exact ⟨rfl, rfl, rfl⟩

lemma RcbObject.reserveAttributes (h : RcbObject rs o) (ip : IpAddr) : RcbObject rs (reserveAttributes ip o) := by
  refine ⟨h.objects, ?_, ?_⟩
  · rw [← h.names, Server.reserveAttributes, map_map]
    apply map_congr_left
    intro a _
    dsimp only [Function.comp]
    split_ifs <;> rfl
  intro a ha
  obtain ⟨a', ha', rfl⟩ := mem_map.mp ha
  obtain ⟨hfc, hch, hv⟩ := h.attributes a' ha'
  split_ifs
  · exact ⟨hfc, hch, rfl⟩
  · exact ⟨hfc, hch, rfl⟩
  · exact ⟨hfc, hch, rfl⟩
  · exact ⟨hfc, hch, hv⟩

lemma rcbObject_materialiseRcb {ldName lnName name : String} {rc : ReportControl} {i : ℕ}
    (h : (materialiseRcb ldName lnName bufDefault rc i name).2 = (rs, st)) :
    RcbObject rs (materialiseRcb ldName lnName bufDefault rc i name).1 := by
  have hrs := materialiseRcb_rs bufDefault ldName lnName rc i name
  rw [h] at hrs
  dsimp only at hrs
  have hbuilt := rcbObject_buildRcbObject ldName lnName rc name rs (by rw [hrs])
  have hfc : rs.fc = if rc.buffered then Fc.br else Fc.rp := by
    rw [fc, hrs]
  rw [hfc] at hbuilt
  dsimp only [materialiseRcb]
  split
  · exact hbuilt.reserveAttributes _
  · exact hbuilt

lemma key_eq_of_path (hw : WellNamed m) {rs' : RcbState} {st' : RcbRuntime}
    (h : Materialised m bufDefault rs st) (h' : Materialised m bufDefault rs' st')
    (hp : rs.path = rs'.path) : rs.key = rs'.key := by
  obtain ⟨ld, hld, ln, hln, rc, hrc, i, name, hnm, heq⟩ := h.instance_of
  obtain ⟨ld', hld', ln', hln', rc', hrc', i', name', hname', heq'⟩ := h'.instance_of
  have hrs := materialiseRcb_rs bufDefault ld.name ln.name rc i name
  have hrs' := materialiseRcb_rs bufDefault ld'.name ln'.name rc' i' name'
  rw [heq] at hrs
  rw [heq'] at hrs'
  dsimp only at hrs hrs'
  obtain ⟨h1, h2, h3⟩ : ld.name = ld'.name ∧ ln.name = ln'.name ∧ name = name' := by
    simpa [path, hrs, hrs'] using hp
  obtain rfl := inj_on_of_nodup_map hw.devices hld hld' h1
  obtain rfl := inj_on_of_nodup_map (hw.nodes ld hld) hln hln' h2
  subst h3
  -- The instances of different report controls of one node have different names.
  have hnd := (nodup_append.mp (hw.objects ld hld ln hln)).2.1
  have hrc : rc = rc' := by
    by_contra hne
    have : Std.Symm (Function.onFun List.Disjoint rcbInstanceNames) := ⟨fun _ _ h _ ha hb => h hb ha⟩
    have hdis := (nodup_flatMap.mp hnd).2.forall hrc hrc' hne
    exact hdis (mem_of_getElem? hnm) (mem_of_getElem? hname')
  subst hrc
  rw [hrs, hrs']

lemma Started.sited (hw : WellNamed m) (h : Started m bufDefault runtime s) : Sited s := by
  refine ⟨⟨?_, ?_, ?_⟩, ?_⟩
  · have hn := h.keys_nodup
    rw [pairwise_map]
    refine (pairwise_map.mp hn).imp_of_mem ?_
    intro b b' hb hb' hkey hpath
    exact hkey (key_eq_of_path hw (h.block hb).1 (h.block hb').1 hpath)
  · rw [map_map]
    exact h.keys_nodup
  · intro rs hrs
    obtain ⟨b, hb, rfl⟩ := mem_map.mp hrs
    obtain ⟨ld, hld, ln, hln, rc, hrc, i, name, hnm, heq⟩ := (h.block hb).1.instance_of
    have heq' := materialiseRcb_rs bufDefault ld.name ln.name rc i name
    rw [heq] at heq'
    dsimp only at heq'
    obtain ⟨hd, hpln⟩ := hw.plain ld hld
    obtain ⟨hl, hobj⟩ := hpln ln hln
    have hm := mem_flatMap.mpr ⟨rc, hrc, mem_of_getElem? hnm⟩
    have hfc : '\x00' ∉ (if rc.buffered then Fc.br else Fc.rp).asStr.toList := by
      cases rc.buffered <;> decide
    refine ⟨?_, ?_, ?_⟩
    · rw [heq', fc]
    · rw [heq']
      exact hd
    rw [heq']
    simp only [String.toList_append, mem_append, not_or]
    exact ⟨⟨⟨⟨hl, by decide⟩, hfc⟩, by decide⟩, hobj name hm⟩
  · intro b hb
    obtain ⟨ldName, lnName, rc, i, name, heq, hobj⟩ := h.object hw hb
    exact ⟨_, hobj, rcbObject_materialiseRcb heq⟩

/-- A node `LD/LLN0` with a status `Pos.stVal`, a data set `ds` of it and one report control. -/
def sampleModel (rc : ReportControl) : Model :=
  let stVal : DataAttribute :=
    { name := "stVal", fc := .st, kind := some .boolean, value := some (.boolean false)
      trgOps := TrgOps.dataChange }
  let node : LogicalNode :=
    { name := "LLN0"
      objects := [{ name := "Pos", attributes := [stVal] }]
      dataSets := [{ name := "ds", entries := [⟨⟨"LD/LLN0.Pos.stVal"⟩, .st⟩] }]
      reportControls := [rc] }
  { devices := [{ name := "LD", nodes := [node] }] }

def windowedBlock : ReportControl :=
  { name := "b", dataSet := "ds", buffered := true, bufTime := 100 }

def sampleConfig : Config :=
  { render := ⟨fun _ => "", fun _ => "", id⟩, entrySeed := 7 }

def sampleTime : SystemTime := ⟨0, 0⟩

def writeRequest (item : String) (v : Mms.Value) : List Step :=
  [.beginRequest 1, .write 1 "LD" item v none sampleTime, .endRequest 1 true]

def setStVal (v : Bool) : Step :=
  .update [(⟨"LD/LLN0.Pos.stVal"⟩, .st, .boolean v)] sampleTime true

lemma started_start (m : Model) (bufDefault : ℕ) (runtime : Bool) :
    Started m bufDefault runtime (start m bufDefault runtime) := ⟨_, .refl _, rfl⟩

end Iec61850.Server
