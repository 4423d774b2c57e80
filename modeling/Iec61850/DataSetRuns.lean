import Iec61850.DataSetRefs

/-! Data sets and the blocks that refer to them, over one service and over whole runs. -/
namespace Iec61850.Server
open Mms Access Text Model LcbState DataObject List Option

variable {c : Ctx} {rs : RcbState} {w : Work} {attr : String} {v : Value} {conn : ConnId} {ip : Option IpAddr}
  {x : Step}

lemma onRcbWrite_enabled : (onRcbWrite c attr v conn ip rs w).st.enabled →
    w.st.enabled ∨ attr = "RptEna" ∧ v.asBool := by
  have hr : WriteRule c attr v conn ip rs (fun w' => w'.st.enabled = w.st.enabled)
      (fun w' => w'.st.enabled → w.st.enabled ∨ attr = "RptEna" ∧ v.asBool) :=
    { task := id
      taken := fun h _ => by rw [take_st, ← h]
      reserved := fun h _ hon => .inl (by rw [← hon, take_st, ← h])
      released := fun h _ _ hon => .inl (by rw [← hon, release_enabled_conn.1, h])
      idle := fun h _ _ hon => .inl (h ▸ hon)
      stopped := id
      enabled := fun _ heq hv _ => .inr ⟨heq, hv⟩
      disabled := by
        intro w' _ _ hon
        rw [disable_enabled] at hon
        cases hon
      reported := fun h hon => h (by rw [← hon, reportAll_control.enabled])
      purged := fun h _ hon => .inl (h ▸ hon)
      answered := fun h _ => h
      resynced := id
      revised := fun h _ => h }
  exact hr.onRcbWrite rfl

lemma disableConnBlock_enabled (h : (disableConnBlock c conn rs w).st.enabled) : w.st.enabled := by
  have hrelease (w : Work) :
      (if w.st.owner = some conn then release c rs w else w).st.enabled = w.st.enabled := by
    split
    · exact release_enabled_conn.1
    · rfl
  unfold disableConnBlock at h
  rw [hrelease] at h
  split at h
  · rw [disable_enabled] at h
    cases h
  · exact h

lemma background_cases (cfg : Config) (s : State) (hx : x.background) :
    ((step cfg s x).blocks = s.blocks ∧ Aside s.toEngine (step cfg s x).toEngine) ∨
    ∃ (st : State) (f : RcbState → Work → Work), step cfg s x = st.onBlocks f ∧ st.blocks = s.blocks ∧
      st.model = s.model ∧ st.conns = s.conns ∧ (∀ rs w, Frame servedAttrs rs w (f rs w)) ∧
      ∀ rs w, (f rs w).st.enabled = w.st.enabled := by
  refine step_rule (fun hq => .inl ((step_quiet cfg s hq).imp_right And.right))
    (fun _ => .inl ⟨rfl, rfl, fun _ h => h, le_rfl⟩) ?_ ?_
  · intro m changes hm
    cases hm <;> cases hx
  intro st f hd
  have hite {p : Prop} [Decidable p] {w w' : Work} (h : w'.st.enabled = w.st.enabled) :
      (if p then w' else w).st.enabled = w.st.enabled := by
    split
    · exact h
    · rfl
  have hkp : st.model = s.model ∧ st.conns = s.conns ∧ ∀ rs w, (f rs w).st.enabled = w.st.enabled := by
    cases hd with
    | write hw =>
      obtain ⟨_, _, _, _, rfl, -⟩ := hw.stored
      cases hx
    | update | ended => cases hx
    | written => exact ⟨rfl, rfl, fun _ _ => onUpdateBlock_control.enabled⟩
    | window => exact ⟨rfl, rfl, fun _ _ => hite windowTask_control.enabled⟩
    | integrity => exact ⟨rfl, rfl, fun _ _ => hite integrityTask_control.enabled⟩
    | reservation =>
      refine ⟨rfl, rfl, fun rs w => hite ?_⟩
      obtain ⟨_, _, _, _, _, _, _, -, heq⟩ : Reserves rs w (reservationTask _ rs w) := .reservationTask
      rw [heq]
  exact .inr ⟨st, f, rfl, hd.blocks, hkp.1, hkp.2.1, hd.frame, hkp.2.2⟩

namespace Inner

/-- A control block that can be enabled, by its key. -/
inductive BlockId where
  | report (key : String)
  | log (key : String)

/-- A block is enabled, and this is its `DatSet`. -/
inductive Enabled (render : Render) (s : Inner) : BlockId → String → Prop where
  | report {b : Block} (mem : b ∈ s.blocks) (on : b.st.enabled = true) :
      Enabled render s (.report b.rs.key) (attrText render s.model b.rs "DatSet")
  | log {key : String} {lcb : LcbState} (known : s.lcbs.lookup key = some lcb)
      (on : lcbEnabled s.model lcb = true) : Enabled render s (.log key) (lcbDatSet render s.model lcb)

/-- The data set that an enabled block names exists. -/
def Referential (render : Render) (s : Inner) : Prop :=
  ∀ id r, s.Enabled render id r → (resolveDataSet s.model r).isSome = true

/-- No data set that is configured or that a control block names is deleted or replaced, an enabled block keeps
the one it names, and one that comes to be enabled has one. -/
structure Kept (render : Render) (s s' : Inner) : Prop where
  named : ∀ d l ds x, s.model.dataSetAt d l ds = some x →
    x.deletable = false ∨ s.dataSetInUse render d l ds = true → s'.model.dataSetAt d l ds = some x
  same : ∀ id r r', s.Enabled render id r → s'.Enabled render id r' → r' = r
  fresh : ∀ id r', s'.Enabled render id r' → (∃ r, s.Enabled render id r) ∨ (resolveDataSet s'.model r').isSome = true

def KeepsNamed (render : Render) (s s' : Inner) : Prop := ∀ d l ds x, s.model.dataSetAt d l ds = some x →
  x.deletable = false ∨ s.dataSetInUse render d l ds → s'.model.dataSetAt d l ds = some x

variable {render : Render} {s s' t : Inner} {d l ds r : String} {changes : Table ConnId ChangeSet}
  {ms : List DsMember} {id : BlockId}

lemma resolveDataSet_mono {m m' : Model} (h : resolveDataSet m r = some ms)
    (hkp : ∀ d l ds x, r = d ++ "/" ++ l ++ "$" ++ ds → m.dataSetAt d l ds = some x →
      m'.dataSetAt d l ds = some x) : resolveDataSet m' r = some ms := by
  obtain ⟨d, list, l, ds, x, hd, hl, hx, hms⟩ := resolveDataSet_eq_some.mp h
  have hr : r = d ++ "/" ++ l ++ "$" ++ ds := by
    rw [eq_of_splitOnce (t := "/") rfl hd, eq_of_splitOnce (t := "$") rfl hl]
    simp [String.append_assoc]
  exact resolveDataSet_eq_some.mpr ⟨d, list, l, ds, x, hd, hl, hkp d l ds x hr hx, hms⟩

/-- A control block names a data set: a report or log control block by its `DatSet`, a GOOSE or
sampled-value control block by its configuration. -/
inductive Named (render : Render) (s : Inner) (d l ds : String) : Prop where
  | report (b : Block) (mem : b ∈ s.blocks)
      (names : attrText render s.model b.rs "DatSet" = d ++ "/" ++ l ++ "$" ++ ds)
  | log (key : String) (lcb : LcbState) (known : s.lcbs.lookup key = some lcb)
      (names : lcbDatSet render s.model lcb = d ++ "/" ++ l ++ "$" ++ ds)
  | goose (n : LogicalNode) (node : s.model.node d l = some n)
      (names : ∃ g ∈ n.gseControls, g.dataSet = ds)
  | sampled (n : LogicalNode) (node : s.model.node d l = some n)
      (names : ∃ v ∈ n.svControls, v.dataSet = ds)

lemma Named.inUse (h : s.Named render d l ds) : s.dataSetInUse render d l ds := by
  unfold dataSetInUse Server.dataSetInUse
  cases h with
  | report b mem names =>
    have hany : (s.blocks.any fun b => attrText render s.model b.rs "DatSet" ==
        d ++ "/" ++ l ++ "$" ++ ds) := any_eq_true.mpr ⟨b, mem, by simp [names]⟩
    simp [hany]
  | log key lcb known names =>
    have hany : lcbsUseDataSet render s.model s.lcbs (d ++ "/" ++ l ++ "$" ++ ds) :=
      any_eq_true.mpr ⟨⟨key, lcb⟩, AList.mem_lookup_iff.mp known, by simp [names]⟩
    simp [hany]
  | goose _ node names | sampled _ node names => simp [node, names]

lemma named_of_enabled (h : s.Enabled render id (d ++ "/" ++ l ++ "$" ++ ds)) : s.Named render d l ds := by
  generalize hr : d ++ "/" ++ l ++ "$" ++ ds = r at h
  cases h with
  | @report b mem on => exact .report b mem hr.symm
  | @log key lcb known on => exact .log key lcb known hr.symm

lemma Kept.members (h : Kept render s s') (hon : s.Enabled render id r) (hms : resolveDataSet s.model r = some ms) :
    resolveDataSet s'.model r = some ms := by
  refine resolveDataSet_mono hms ?_
  rintro d l ds x rfl hx
  exact h.named d l ds x hx (.inr ((named_of_enabled hon).inUse))

lemma Kept.referential (h : Kept render s s') (hr : s.Referential render) : s'.Referential render := by
  intro id r' hon
  rcases h.fresh id r' hon with ⟨r, hr'⟩ | hnew
  · obtain ⟨ms, hms⟩ := isSome_iff_exists.mp (hr id r hr')
    rw [h.same id r r' hr' hon, h.members hr' hms]
    rfl
  · exact hnew

/-- A block has this `DatSet`, whether it is enabled or not. -/
inductive Names (render : Render) (s : Inner) : BlockId → String → Prop where
  | report {b : Block} (mem : b ∈ s.blocks) : Names render s (.report b.rs.key) (attrText render s.model b.rs "DatSet")
  | log {key : String} {lcb : LcbState} (known : s.lcbs.lookup key = some lcb) :
      Names render s (.log key) (lcbDatSet render s.model lcb)

lemma Enabled.names (h : s.Enabled render id r) : s.Names render id r := by
  cases h with
  | report mem on => exact .report mem
  | log known on => exact .log known

section
variable (hn : (s.blocks.map fun b => b.rs.key).Nodup)
include hn

lemma Names.unique {r' : String} (h : s.Names render id r) (h' : s.Names render id r') : r' = r := by
  generalize hid : id = id' at h'
  cases h with
  | @report b mem =>
    cases h' with
    | @report b' mem' => rw [inj_on_of_nodup_map hn mem mem' (BlockId.report.inj hid)]
    | log => cases hid
  | @log key lcb known =>
    cases h' with
    | report => cases hid
    | @log key' lcb' known' =>
      cases hid
      rw [mem_unique known known']

lemma kept_of_back (hnmd : KeepsNamed render s s')
    (hbk : ∀ id r', s'.Enabled render id r' → s.Enabled render id r' ∨
      s.Names render id r' ∧ (resolveDataSet s'.model r').isSome) : Kept render s s' := by
  refine ⟨hnmd, ?_, ?_⟩
  · intro id r r' hon hon'
    rcases hbk id r' hon' with h | h
    · exact hon.names.unique hn h.names
    · exact hon.names.unique hn h.1
  intro id r' hon'
  rcases hbk id r' hon' with h | h
  · exact .inl ⟨r', h⟩
  · exact .inr h.2

end

variable {m m' : Model} {b : Block}

lemma attrText_of_refs (h : RefsKept s m m') (hb : b ∈ s.blocks) :
    attrText render m' b.rs "DatSet" = attrText render m b.rs "DatSet" := by
  rw [attrText, h.reports b hb, attrText]

lemma lcb_of_refs (render : Render) (h : RefsKept s m m') {key : String} {lcb : LcbState}
    (hlcb : s.lcbs.lookup key = some lcb) :
    lcbEnabled m' lcb = lcbEnabled m lcb ∧ lcbDatSet render m' lcb = lcbDatSet render m lcb := by
  have hena := h.logs key lcb hlcb "LogEna" (by decide)
  have hset := h.logs key lcb hlcb "DatSet" (by decide)
  exact ⟨by rw [lcbEnabled, hena, lcbEnabled], by rw [lcbDatSet, hset, lcbDatSet]⟩

lemma enabled_of_refs (hr : RefsKept s s.model s'.model)
    (hfall : ∀ b' ∈ s'.blocks, ∃ b ∈ s.blocks, b.rs = b'.rs ∧ (b'.st.enabled → b.st.enabled))
    (hl : s'.lcbs = s.lcbs) (h : s'.Enabled render id r) : s.Enabled render id r := by
  cases h with
  | @report b' mem' on' =>
    obtain ⟨b, hb, hrs, hon⟩ := hfall b' mem'
    rw [← hrs, attrText_of_refs hr hb]
    exact .report hb (hon on')
  | @log key lcb known on =>
    rw [hl] at known
    obtain ⟨hena, hset⟩ := lcb_of_refs render hr known
    rw [hset]
    exact .log known (hena ▸ on)

lemma Kept.still (h : Kept render s t) (hb : s'.blocks = t.blocks) (hl : s'.lcbs = t.lcbs)
    (hr : RefsKept t t.model s'.model) (hsets : t.model.SameSets s'.model) : Kept render s s' := by
  have hbk {id : BlockId} {r : String} : s'.Enabled render id r → t.Enabled render id r :=
    enabled_of_refs hr (fun b hm => ⟨b, hb ▸ hm, rfl, fun on => on⟩) hl
  refine ⟨?_, ?_, ?_⟩
  · intro d l ds x hx hkeep
    rw [hsets d l ds]
    exact h.named d l ds x hx hkeep
  · intro id r r' hon hon'
    exact h.same id r r' hon (hbk hon')
  intro id r' hon'
  rw [resolveDataSet_of_sameSets hsets]
  exact h.fresh id r' (hbk hon')

lemma Hosted.of_sites (hs : s.Hosted) (hrs : s'.blocks.map Block.rs = s.blocks.map Block.rs)
    (hshp : ∀ b ∈ s.blocks, Shaped s.model b.rs → Shaped s'.model b.rs)
    (hl : s'.lcbs.All fun key lcb' => ∃ lcb, s.lcbs.lookup key = some lcb ∧ lcb'.path = lcb.path)
    (ht : s'.tracker = s.tracker) : s'.Hosted := by
  have hold : ∀ b' ∈ s'.blocks, ∃ b ∈ s.blocks, b.rs = b'.rs := by
    intro b' hb'
    have hm : b'.rs ∈ s.blocks.map Block.rs := hrs ▸ mem_map_of_mem hb'
    exact mem_map.mp hm
  refine ⟨⟨?_, ?_⟩, ?_, ?_, ?_, ?_⟩
  · rw [hrs]
    exact hs.sited.placed
  · intro b' hb'
    obtain ⟨b, hb, heq⟩ := hold b' hb'
    rw [← heq]
    exact hshp b hb (hs.sited.shaped b hb)
  · intro key lcb' hlcb'
    obtain ⟨lcb, hlcb, hpath⟩ := hl key lcb' hlcb'
    apply (hs.keys key lcb hlcb).of_site
    simpa [path] using hpath
  · intro key lcb' hlcb'
    obtain ⟨lcb, hlcb, hpath⟩ := hl key lcb' hlcb'
    obtain ⟨hd, hln, hnm⟩ := triple_inj hpath
    rw [hd, hln, hnm]
    exact hs.plain key lcb hlcb
  · intro key lcb' hlcb' b' hb'
    obtain ⟨lcb, hlcb, hpath⟩ := hl key lcb' hlcb'
    obtain ⟨b, hb, heq⟩ := hold b' hb'
    rw [hpath, ← heq]
    exact hs.apart key lcb hlcb b hb
  · intro o ho
    rw [ht] at ho
    constructor
    · intro b' hb'
      obtain ⟨b, hb, heq⟩ := hold b' hb'
      rw [← heq]
      exact (hs.untracked o ho).1 b hb
    intro key lcb' hlcb'
    obtain ⟨lcb, hlcb, hpath⟩ := hl key lcb' hlcb'
    rw [hpath]
    exact (hs.untracked o ho).2 key lcb hlcb

variable {w : WriteCtx} {domain item key : String} {b' : Block}

lemma mem_onBlock (st : State) {f : RcbState → Work → Work}
    (hn : (st.blocks.map fun b => b.rs.key).Nodup) (hb : b ∈ st.blocks) (hkey : b.rs.key = key)
    (hb' : b' ∈ (st.onBlock key f).blocks) :
    (b' ∈ st.blocks ∧ b'.rs.key ≠ key) ∨ b' = b.after (f b.rs (b.work st.toEngine)) := by
  obtain ⟨before, after, hs⟩ := append_of_mem hb
  rw [onBlock_eq hs hkey hn] at hb'
  rw [hs, map_append, map_cons, nodup_append] at hn
  obtain ⟨-, haft, hbef⟩ := hn
  rcases mem_append.mp hb' with hin | hin
  · left
    refine ⟨by simp [hs, hin], ?_⟩
    rw [← hkey]
    exact hbef _ (mem_map_of_mem hin) _ mem_cons_self
  rcases mem_cons.mp hin with rfl | hin
  · exact .inr rfl
  left
  refine ⟨by simp [hs, hin], ?_⟩
  intro heq
  apply (nodup_cons.mp haft).1
  rw [hkey, ← heq]
  exact mem_map_of_mem hin

def appliedReport (s : Inner) (b : Block) (c : Ctx) (attr : String) (v : Value) (conn : ConnId)
    (ip : Option IpAddr) (changes : Table ConnId ChangeSet) : Inner :=
  let stored := { s with model := setAttr s.model b.rs attr v, changes := changes }
  { stored with toState := stored.toState.onBlock b.rs.key (onRcbWrite c attr v conn ip) }

variable {b : Block}

def afterWrite (s : Inner) (b : Block) (c : Ctx) (attr : String) (v : Value) (conn : ConnId)
    (ip : Option IpAddr) : Work :=
  onRcbWrite c attr v conn ip b.rs (b.work { s.toEngine with model := setAttr s.model b.rs attr v })

section
variable (hs : s.Hosted) (hb : b ∈ s.blocks)
include hs hb

lemma appliedReport_model :
    (s.appliedReport b c attr v conn ip changes).model = (s.afterWrite b c attr v conn ip).model := by
  obtain ⟨before, after, hsplit⟩ := append_of_mem hb
  let stored : State := { s.toState with model := setAttr s.model b.rs attr v, changes := changes }
  have heq := onBlock_eq (s := stored) (f := onRcbWrite c attr v conn ip) hsplit rfl hs.sited.placed.keys_nodup
  exact congrArg (fun st : State => st.model) heq

lemma appliedReport_frame :
    ModelFrame (attr :: servedAttrs) b.rs s.model (s.appliedReport b c attr v conn ip changes).model := by
  have hset : ModelFrame (attr :: servedAttrs) b.rs s.model (setAttr s.model b.rs attr v) := .setAttr mem_cons_self v
  have hwork : ModelFrame servedAttrs b.rs (setAttr s.model b.rs attr v)
      (s.afterWrite b c attr v conn ip).model :=
    (onRcbWrite_frame (w := b.work { s.toEngine with model := setAttr s.model b.rs attr v })).model
  rw [appliedReport_model hs hb]
  exact hset.trans (hwork.mono (subset_cons_self _ _))

lemma mem_appliedReport (hb' : b' ∈ (s.appliedReport b c attr v conn ip changes).blocks) :
    ∃ b0 ∈ s.blocks, b0.rs = b'.rs ∧ (b'.st.enabled → b0.st.enabled ∨ b0 = b ∧ attr = "RptEna" ∧ v.asBool) := by
  let stored : State := { s.toState with model := setAttr s.model b.rs attr v, changes := changes }
  have hcs := mem_onBlock stored hs.sited.placed.keys_nodup hb rfl hb'
  rcases hcs with ⟨hm, -⟩ | rfl
  · exact ⟨b', hm, rfl, .inl⟩
  refine ⟨b, hb, rfl, ?_⟩
  intro hon
  rcases onRcbWrite_enabled hon with h | h
  · exact .inl h
  · exact .inr ⟨rfl, h⟩

lemma sameSets_appliedReport : s.model.SameSets (s.appliedReport b c attr v conn ip changes).model :=
  (appliedReport_frame hs hb).dataSet

end

lemma resolves_of_check (h : checkRcbWrite c s.model b.rs b.st attr v conn ip = .ok ())
    (hat : attr = "RptEna") (hv : v.asBool) :
    (resolveDataSet s.model (attrText c.render s.model b.rs "DatSet")).isSome := by
  obtain ⟨-, h⟩ := ok_of_ite_error h
  obtain ⟨-, h⟩ := ok_of_ite_error h
  rw [if_pos ⟨hat, hv⟩] at h
  obtain ⟨-, h⟩ := ok_of_ite_error h
  obtain ⟨hsome, -⟩ := ok_of_ite_error h
  exact isSome_iff_ne_none.mpr (by simpa using hsome)

lemma kept_appliedReport (hs : s.Hosted) (hb : b ∈ s.blocks) (hr : c.render = render)
    (hchk : checkRcbWrite c s.model b.rs b.st attr v conn ip = .ok ()) :
    Kept render s (s.appliedReport b c attr v conn ip changes) := by
  have hfr : ModelFrame (attr :: servedAttrs) b.rs s.model
      (s.appliedReport b c attr v conn ip changes).model := appliedReport_frame hs hb
  have hsets : s.model.SameSets (s.appliedReport b c attr v conn ip changes).model := sameSets_appliedReport hs hb
  have hadmits := admits_of_check hchk
  -- The reference of a block stays, unless it is the one written, which is not enabled then.
  have htx : ∀ b0 ∈ s.blocks, (b0.rs = b.rs → attr ≠ "DatSet") →
      attrText render (s.appliedReport b c attr v conn ip changes).model b0.rs "DatSet" =
        attrText render s.model b0.rs "DatSet" := by
    intro b0 hb0 hown
    rw [attrText, attrText]
    rcases hs.same_or_apart hb hb0 with heq | hne
    · rw [hfr.attrValue_any]
      simp [Ne.symm (hown heq), servedAttrs, emittedAttrs, reservedAttrs]
    · rw [hfr.attrValue_other hne]
  refine kept_of_back hs.sited.placed.keys_nodup ?_ ?_
  · intro d l ds x hx _
    rw [hsets d l ds]
    exact hx
  intro id r' hon'
  cases hon' with
  | @report b' mem' on' =>
    obtain ⟨b0, hb0, hrs, hon⟩ := mem_appliedReport hs hb mem'
    rw [← hrs]
    rcases hon on' with hwas | ⟨rfl, hat, hv⟩
    · left
      rw [htx b0 hb0]
      · exact .report hb0 hwas
      rintro heq rfl
      obtain rfl := inj_on_of_nodup_map hs.sited.placed.keys_nodup hb0 hb (by rw [heq])
      rw [hadmits.settings (by decide)] at hwas
      cases hwas
    · right
      rw [resolveDataSet_of_sameSets hsets, htx b0 hb0 fun _ => by rw [hat]; decide, ← hr]
      exact ⟨.report hb0, resolves_of_check hchk hat hv⟩
  | @log key lcb hlcb on' =>
    have hobj := hfr.object_apart (hs.apart key lcb hlcb b hb)
    have hattrs : ∀ n, lcbAttr (s.appliedReport b c attr v conn ip changes).model lcb n =
        lcbAttr s.model lcb n := by
      intro n
      rw [lcbAttr, lcbAttr, hobj]
    left
    rw [lcbEnabled, hattrs, ← lcbEnabled] at on'
    rw [lcbDatSet, hattrs, ← lcbDatSet]
    exact .log hlcb on'

variable {lcb : LcbState} {rest : List String}

def Addressed (s : Inner) (domain item : String) : CbTarget → Prop
  | .report key attr => rcbKey domain item = some (key, attr)
  | .setting attr => isSgcbWrite item = some attr
  | .log key attr => lcbKey s.lcbs domain item = some (key, attr)
  | .sampled key attr => svcbKey s.svcbs domain item = some (key, attr)
  | .plain => True

lemma addressed_of_target {t : CbTarget} (h : s.target domain item = t) : s.Addressed domain item t := by
  subst h
  unfold target
  split
  · next hkey => exact hkey
  split
  · next hsome => exact (filter_eq_some_iff.mp hsome).1
  split
  · next hkey => exact hkey
  split
  · next hkey => exact hkey
  · trivial

lemma lcbKey_own (hs : s.Hosted) (h : lcbKey s.lcbs domain item = some (key, attr)) :
    ∃ lcb rest, s.lcbs.lookup key = some lcb ∧ domain = lcb.domain ∧ attr = rest.headD "" ∧
      split '$' item = lcb.ln :: "LG" :: lcb.name :: rest := by
  unfold lcbKey at h
  split at h
  next ln fc name rest hsplit =>
    split at h
    next hlg =>
      dsimp only at h
      split at h
      next hsome =>
        obtain ⟨hkey, hattr⟩ := Prod.mk.inj (some.inj h)
        rw [hkey] at hsome
        obtain ⟨lcb, hlcb⟩ := isSome_iff_exists.mp hsome
        have hat := hs.keys key lcb hlcb
        rw [← hkey] at hat
        obtain ⟨hpln, hitem⟩ := hs.plain key lcb hlcb
        obtain ⟨hd, hi⟩ := append_inj rfl hat hpln hitem
        have hjoin : ∀ a c : String, a ++ "$LG$" ++ c = a ++ "$" ++ "LG" ++ "$" ++ c := by
          intro a c
          simp only [String.append_assoc]
          rfl
        rw [hjoin, hjoin] at hi
        rw [hlg] at hsplit
        exact ⟨lcb, rest, hlcb, hd, hattr.symm, split_of_joined hsplit hi (by decide)⟩
      · cases h
    · cases h
  · cases h

lemma checked_log (hlcb : s.lcbs.lookup key = some lcb)
    (h : checkLcbWrite c.render s.model s.lcbs key attr v = .ok ()) : (attr = "LogEna" ∧ (v.asBool →
      (resolveDataSet s.model (lcbDatSet c.render s.model lcb)).isSome)) ∨
    (attr ≠ "LogEna" ∧ lcbEnabled s.model lcb = false) := by
  unfold checkLcbWrite at h
  rw [hlcb] at h
  dsimp only at h
  split at h
  next hat =>
    obtain ⟨hno, -⟩ := ok_of_ite_error h
    refine .inl ⟨hat, ?_⟩
    intro hv
    rw [hv, Bool.true_and, Bool.or_eq_true, not_or] at hno
    exact isSome_iff_ne_none.mpr (by simpa using hno.2)
  next hat =>
    split at h
    · obtain ⟨hoff, -⟩ := ok_of_ite_error h
      exact .inr ⟨hat, (Bool.not_eq_true _).mp hoff⟩
    · cases h

variable {lcb' : LcbState} {key' n : String} {onRuntime : Bool}

lemma Hosted.lcb_eq (hs : s.Hosted) (h : s.lcbs.lookup key = some lcb) (h' : s.lcbs.lookup key' = some lcb')
    (hpath : lcb'.path = lcb.path) : key' = key := by
  obtain ⟨hd, hl, hn⟩ := triple_inj hpath
  rw [hs.keys key lcb h, hs.keys key' lcb' h', hd, hl, hn]

lemma putItem_log (hd : domain = lcb.domain) (hsplit : split '$' item = lcb.ln :: "LG" :: lcb.name :: attr :: rest) :
    putItem m domain item v = m.objectMut lcb.domain lcb.ln lcb.name
      (writeBelowMut .lg (fun da => { da with value := some v }) (attr :: rest)) := by
  have hlg : Fc.parseLenient "LG" = .lg := by decide
  unfold putItem writePath
  rw [hsplit]
  dsimp only
  rw [hlg, hd, headD_cons]

lemma object_log_other {o : String} (hd : domain = lcb.domain)
    (hsplit : split '$' item = lcb.ln :: "LG" :: lcb.name :: attr :: rest)
    (hne : (d, l, o) ≠ lcb.path) : (putItem m domain item v).object d l o = m.object d l o := by
  rw [putItem_log hd hsplit]
  exact object_objectMut_other m (writeBelowMut_name (attr :: rest)) hne

lemma lcbAttr_log_other (hs : s.Hosted) (hlcb : s.lcbs.lookup key = some lcb) (hd : domain = lcb.domain)
    (hsplit : split '$' item = lcb.ln :: "LG" :: lcb.name :: attr :: rest)
    (hlcb' : s.lcbs.lookup key' = some lcb') (hne : key' = key → attr :: rest ≠ [n]) :
    lcbAttr (putItem s.model domain item v) lcb' n = lcbAttr s.model lcb' n := by
  by_cases hpath : lcb'.path = lcb.path
  · have hrs := hne (hs.lcb_eq hlcb hlcb' hpath)
    rw [lcbAttr_of_path hpath, lcbAttr_of_path hpath, putItem_log hd hsplit, lcbAttr, lcbAttr,
      object_objectMut_same s.model (writeBelowMut_name (attr :: rest))]
    cases s.model.object lcb.domain lcb.ln lcb.name with
    | none => rfl
    | some o => exact fcValue_writeBelowMut (fun _ => hrs) o
  · rw [lcbAttr, lcbAttr, object_log_other hd hsplit hpath]

lemma lcbAttr_log_same {u : Value} (hd : domain = lcb.domain)
    (hsplit : split '$' item = [lcb.ln, "LG", lcb.name, attr])
    (hu : lcbAttr (putItem m domain item v) lcb attr = some u) : u = v := by
  rw [putItem_log hd hsplit, lcbAttr, object_objectMut_same m (writeBelowMut_name [attr])] at hu
  rcases ho : m.object lcb.domain lcb.ln lcb.name with _ | o
  · simp [ho] at hu
  rw [ho, map_some, bind_some, writeBelowMut_last, find_onAttribute_same (keepsPlace_put v) fun c => c == .lg] at hu
  cases ha : o.attributes.find? fun a => a.name == attr && a.fc == .lg with
  | none => simp [ha] at hu
  | some a =>
    rw [ha] at hu
    exact (some.inj hu).symm

def appliedLog (s : Inner) (domain item key attr : String) (v : Value) (onRuntime : Bool)
    (changes : Table ConnId ChangeSet) : Inner :=
  let stored := putItem s.model domain item v
  { s with model := stored, changes := changes, lcbs := onLcbWrite stored onRuntime key attr s.lcbs }

lemma appliedLog_model :
    (s.appliedLog domain item key attr v onRuntime changes).model = putItem s.model domain item v := rfl

lemma lcbs_onLcbWrite {lcbs : Table String LcbState} : (onLcbWrite m onRuntime key attr lcbs).All fun k lcb' =>
      ∃ lcb, lcbs.lookup k = some lcb ∧ lcb'.path = lcb.path ∧ lcb'.journal = lcb.journal := by
  have hself : lcbs.All fun k lcb' =>
      ∃ lcb, lcbs.lookup k = some lcb ∧ lcb'.path = lcb.path ∧ lcb'.journal = lcb.journal :=
    fun k lcb h => ⟨lcb, h, rfl, rfl⟩
  unfold onLcbWrite
  split
  · exact hself
  split
  · exact hself
  next lcb hlcb =>
  apply hself.insert
  refine ⟨lcb, hlcb, ?_⟩
  split
  · dsimp only [LcbState.startIntegrity]
    split <;> exact ⟨rfl, rfl⟩
  · exact ⟨rfl, rfl⟩

lemma lcbEnabled_of_path (h : lcb'.path = lcb.path) : lcbEnabled m lcb' = lcbEnabled m lcb := by
  rw [lcbEnabled, lcbAttr_of_path h, lcbEnabled]

lemma lcbDatSet_of_path (h : lcb'.path = lcb.path) : lcbDatSet render m lcb' = lcbDatSet render m lcb := by
  rw [lcbDatSet, lcbAttr_of_path h, lcbDatSet]

lemma kept_appliedLog (hs : s.Hosted)
    (hlcb : s.lcbs.lookup key = some lcb) (hr : c.render = render) (hd : domain = lcb.domain)
    (hsplit : split '$' item = lcb.ln :: "LG" :: lcb.name :: attr :: rest)
    (hchk : checkLcbWrite c.render s.model s.lcbs key attr v = .ok ()) :
    Kept render s (s.appliedLog domain item key attr v onRuntime changes) := by
  have hsets : s.model.SameSets (putItem s.model domain item v) := sameSets_putItem
  have hchkd := checked_log hlcb hchk
  refine kept_of_back hs.sited.placed.keys_nodup ?_ ?_
  · intro d l ds x hx _
    rw [appliedLog_model, hsets d l ds]
    exact hx
  intro id r' hon'
  cases hon' with
  | @report b hb on =>
    have hobj : (putItem s.model domain item v).object b.rs.domain b.rs.lnName b.rs.objectName =
        s.model.object b.rs.domain b.rs.lnName b.rs.objectName :=
      object_log_other hd hsplit (Ne.symm (hs.apart key lcb hlcb b hb))
    left
    rw [appliedLog_model, attrText, attrValue, hobj, ← attrValue, ← attrText]
    exact .report hb on
  | @log key' lcb' hlcb' on' =>
    obtain ⟨lcb0, hlcb0, hpath, -⟩ := lcbs_onLcbWrite key' lcb' hlcb'
    rw [appliedLog_model, lcbEnabled_of_path hpath] at on'
    rw [appliedLog_model, lcbDatSet_of_path hpath]
    have hoth : ∀ n, (key' = key → attr :: rest ≠ [n]) →
        lcbAttr (putItem s.model domain item v) lcb0 n = lcbAttr s.model lcb0 n :=
      fun n hne => lcbAttr_log_other hs hlcb hd hsplit hlcb0 hne
    by_cases hhit : key' = key ∧ attr :: rest = ["LogEna"]
    · -- The flag of this block was written, and set, so the check found its data set.
      obtain ⟨rfl, heq⟩ := hhit
      obtain ⟨rfl, rfl⟩ := cons.inj heq
      obtain rfl := mem_unique hlcb hlcb0
      have hv : v.asBool := by
        unfold lcbEnabled at on'
        rcases hu : lcbAttr (putItem s.model domain item v) lcb "LogEna" with _ | u
        · simp [hu] at on'
        rw [hu] at on'
        rw [← lcbAttr_log_same hd hsplit hu]
        exact on'
      right
      rw [lcbDatSet, hoth "DatSet" (fun _ h => absurd h (by decide)), ← lcbDatSet,
        resolveDataSet_of_sameSets hsets, ← hr]
      rcases hchkd with ⟨-, hresolves⟩ | ⟨hno, -⟩
      · exact ⟨.log hlcb, hresolves hv⟩
      · exact absurd rfl hno
    left
    rw [lcbEnabled, hoth "LogEna" (fun hkey heq => hhit ⟨hkey, heq⟩), ← lcbEnabled] at on'
    rw [lcbDatSet, hoth, ← lcbDatSet]
    · exact .log hlcb0 on'
    rintro rfl heq
    obtain rfl := mem_unique hlcb hlcb0
    obtain ⟨rfl, -⟩ := cons.inj heq
    rcases hchkd with ⟨hat, -⟩ | ⟨-, hoff⟩
    · exact absurd hat (by decide)
    · rw [hoff] at on'
      cases on'

variable {f : RcbState → Work → Work} {cfg : Config}

/-- The engine worked on the blocks: the references and the data sets are the same, and no block was
enabled. -/
structure Worked (s : Inner) (st : State) : Prop where
  refs : RefsKept s s.model st.model
  sets : s.model.SameSets st.model
  rs : st.blocks.map Block.rs = s.blocks.map Block.rs
  fall : ∀ b' ∈ st.blocks, ∃ b ∈ s.blocks, b.rs = b'.rs ∧ (b'.st.enabled = true → b.st.enabled = true)

variable {st : State}

lemma worked_idle (hb : st.blocks = s.blocks) (hm : st.model = s.model) : Worked s st := by
  refine ⟨?_, ?_, by rw [hb], fun b hmem => ⟨b, hb ▸ hmem, rfl, id⟩⟩
  · rw [hm]
    exact .refl
  · rw [hm]
    exact .refl

section
variable (hs : s.Hosted)
include hs

lemma worked_onBlocks (hb : st.blocks = s.blocks)
    (hm : st.model = s.model) (hfr : ∀ rs w, Frame servedAttrs rs w (f rs w))
    (hen : ∀ rs w, (f rs w).st.enabled → w.st.enabled) : Worked s (st.onBlocks f) := by
  obtain ⟨hrefs, hsets⟩ := refsKept_onBlocks hs hfr st.toEngine
  rw [hm, ← hb] at hrefs hsets
  refine ⟨hrefs, hsets, ?_, ?_⟩
  · rw [onBlocks_rs, hb]
  intro b' hb'
  rw [← hb]
  exact enabled_onBlocks hen hb'

lemma worked_background (hx : x.background) : Worked s (step cfg s.toState x) := by
  rcases background_cases cfg s.toState hx with ⟨hb, ha⟩ | ⟨st, f, heq, hb, hm, -, hf, hen⟩
  · exact worked_idle hb ha.model
  · rw [heq]
    exact worked_onBlocks hs hb hm hf fun rs w h => hen rs w ▸ h

lemma worked_endAssociation (conn : ConnId) (now : SystemTime) :
    Worked s (step cfg s.toState (.endAssociation conn now)) := by
  rw [step]
  split
  · exact worked_idle rfl rfl
  split
  · exact worked_idle rfl rfl
  · exact worked_onBlocks hs rfl rfl (fun _ _ => disableConnBlock_frame)
      fun _ _ => disableConnBlock_enabled

lemma kept_of_refs (hrefs : RefsKept s s.model s'.model) (hnmd : KeepsNamed render s s')
    (hrs : s'.blocks.map Block.rs = s.blocks.map Block.rs)
    (hfall : ∀ b' ∈ s'.blocks, ∃ b ∈ s.blocks, b.rs = b'.rs ∧ (b'.st.enabled → b.st.enabled))
    (hl : s'.lcbs = s.lcbs) (ht : s'.tracker = s.tracker) : Kept render s s' ∧ s'.Hosted := by
  constructor
  · exact kept_of_back hs.sited.placed.keys_nodup hnmd fun id r' hon => .inl (enabled_of_refs hrefs hfall hl hon)
  refine hs.of_sites hrs hrefs.shaped ?_ ht
  rw [hl]
  exact fun key lcb h => ⟨lcb, h, rfl⟩

lemma kept_of_worked (hw : Worked s s'.toState) (hl : s'.lcbs = s.lcbs)
    (ht : s'.tracker = s.tracker) : Kept render s s' ∧ s'.Hosted := by
  refine kept_of_refs hs hw.refs ?_ hw.rs hw.fall hl ht
  intro d l ds x hx _
  rw [hw.sets d l ds]
  exact hx

lemma kept_of_quiet (hq : Quiet s s.model s'.model) (hb : s'.blocks = s.blocks)
    (hl : s'.lcbs = s.lcbs) (ht : s'.tracker = s.tracker) : Kept render s s' ∧ s'.Hosted := by
  obtain ⟨hrefs, hsets⟩ := hq hs.sited.shaped
  exact kept_of_worked hs ⟨hrefs, hsets, by rw [hb], fun b hm => ⟨b, hb ▸ hm, rfl, id⟩⟩ hl ht

end

variable {list : String} {items : List (String × String)} {x : DataSet}

lemma dataSetAt_nodeMut {d' l' : String} {f : LogicalNode → LogicalNode} (hf : ∀ n, (f n).name = n.name)
    (hkp : d' = d → l' = l → ∀ n, n.dataSet ds = some x → (f n).dataSet ds = some x)
    (hx : m.dataSetAt d' l' ds = some x) : (m.nodeMut d l f).dataSetAt d' l' ds = some x := by
  obtain ⟨n, hn, hds⟩ := bind_eq_some_iff.mp hx
  unfold dataSetAt
  by_cases heq : d' = d ∧ l' = l
  · obtain ⟨rfl, rfl⟩ := heq
    rw [node_nodeMut_same m d' l' hf, hn]
    exact hkp rfl rfl n hds
  · rw [node_nodeMut_other m hf fun h1 h2 => heq ⟨h1, h2⟩, hn]
    exact hds

lemma dataSetAt_defineNvl (hx : m.dataSetAt d l ds = some x) :
    (defineNvl m domain list items).dataSetAt d l ds = some x := by
  rcases defineNvl_cases m domain list items with h | ⟨ln, y, h⟩
  · rw [h]
    exact hx
  rw [h]
  refine dataSetAt_nodeMut (fun _ => rfl) ?_ hx
  intro _ _ n hds
  simp only [LogicalNode.dataSet] at hds ⊢
  rw [find?_append, hds]
  rfl

lemma dataSetAt_deleteDataset (hx : s.model.dataSetAt d l ds = some x)
    (hkeep : x.deletable = false ∨ s.dataSetInUse render d l ds) :
    (s.deleteDataset render domain list).model.dataSetAt d l ds = some x := by
  rcases deleteDataset_cases render domain list s with h | ⟨ln, name, y, hy, hdel, huse, h⟩
  · rw [h]
    exact hx
  rw [h]
  refine dataSetAt_nodeMut (fun _ => rfl) ?_ hx
  rintro rfl rfl n hds
  -- The data set deleted is another one of the node.
  have hne : ds ≠ name := by
    rintro rfl
    obtain rfl := mem_unique hx hy
    simp [hdel, huse] at hkeep
  simp only [LogicalNode.dataSet] at hds ⊢
  rw [← hds, find?_filter]
  apply find?_congr
  intro z _
  by_cases hz : z.name = ds <;> simp [hz, hne]

lemma object_defineNvl (d l o : String) : (defineNvl m domain list items).object d l o = m.object d l o := by
  rcases defineNvl_cases m domain list items with h | ⟨ln, y, h⟩
  · rw [h]
  · rw [h]
    refine object_nodeMut _ ?_ ?_ d l o <;> exact fun _ => rfl

lemma object_deleteDataset (d l o : String) :
    (s.deleteDataset render domain list).model.object d l o = s.model.object d l o := by
  rcases deleteDataset_cases render domain list s with h | ⟨ln, name, y, -, -, -, h⟩
  · rw [h]
  · rw [h]
    refine object_nodeMut _ ?_ ?_ d l o <;> exact fun _ => rfl

lemma kept_of_objects (hs : s.Hosted) (hobj : ∀ d l o, s'.model.object d l o = s.model.object d l o)
    (hnmd : KeepsNamed render s s')
    (hsm : s'.blocks = s.blocks ∧ s'.lcbs = s.lcbs ∧ s'.tracker = s.tracker) : Kept render s s' ∧ s'.Hosted := by
  obtain ⟨hb, hl, ht⟩ := hsm
  exact kept_of_refs hs (refsKept_of_objects (fun _ _ => hobj _ _ _) fun _ _ _ => hobj _ _ _) hnmd (by rw [hb])
    (fun b hm => ⟨b, hb ▸ hm, rfl, id⟩) hl ht

lemma kept_define (hs : s.Hosted) : Kept render s (s.serve cfg (.defineDataSet domain list items)) ∧
      (s.serve cfg (.defineDataSet domain list items)).Hosted :=
  kept_of_objects hs object_defineNvl (fun _ _ _ _ hx _ => dataSetAt_defineNvl hx) ⟨rfl, rfl, rfl⟩

lemma kept_delete (hs : s.Hosted) :
    Kept render s (s.deleteDataset render domain list) ∧ (s.deleteDataset render domain list).Hosted := by
  refine kept_of_objects hs object_deleteDataset (fun _ _ _ _ => dataSetAt_deleteDataset) ?_
  rcases deleteDataset_cases render domain list s with h | ⟨ln, name, y, -, -, -, h⟩
  · rw [h]
    exact ⟨rfl, rfl, rfl⟩
  · rw [h]
    exact ⟨rfl, rfl, rfl⟩

/-- An item that the server takes for no control block's leads to no report or log control block, or to one whose
constraint is not writable. -/
def KeepsOff (cfg : Config) (s : Inner) (domain item : String) : Prop := s.target domain item = .plain →
  (∀ b ∈ s.blocks, b.rs.fc ∉ writableFcs cfg.writable ∨ writeSite domain item ≠ some b.rs.path) ∧
  s.lcbs.All fun _ lcb => .lg ∉ writableFcs cfg.writable ∨ writeSite domain item ≠ some lcb.path

/-- No write goes around the rules of a control block. -/
def Checked (cfg : Config) (s : Inner) : Service → Prop
  | .write w domain item _ => w.ctx.render = cfg.render ∧ s.KeepsOff cfg domain item
  | _ => True

variable {ln : LogicalNode} {da : DataAttribute}

lemma fc_of_single {object : String} {fc : Fc} (hda : resolveWrite ln item = some da)
    (hpath : writePath item = some (object, fc, [n])) : da.fc = fc := by
  rw [resolveWrite, hpath, bind_some] at hda
  obtain ⟨o, -, hfilter⟩ := bind_eq_some_iff.mp hda
  obtain ⟨hfnd, -⟩ := filter_eq_some_iff.mp hfilter
  have htest := find?_some hfnd
  simp only [Bool.and_eq_true, beq_iff_eq] at htest
  exact htest.2

lemma no_log_of_plain {object : String} {fc : Fc} {path : List String} (hx : s.KeepsOff cfg domain item)
    (ht : s.target domain item = .plain) (hda : resolveWrite ln item = some da)
    (hpm : s.writePermitted cfg domain da.fc = .ok ()) (hpath : writePath item = some (object, fc, path)) :
    s.lcbs.All fun _ lcb => writeSite domain item = some lcb.path → ∀ n, fc = .lg → path ≠ [n] := by
  rintro key lcb hlcb hsite n rfl rfl
  rcases (hx ht).2 key lcb hlcb with hno | hne
  · rw [← fc_of_single hda hpath] at hno
    exact hno (mem_writable_of_permitted hpm)
  · exact hne hsite

lemma quiet_plain (hx : s.KeepsOff cfg domain item) (ht : s.target domain item = .plain)
    (hln : s.model.node domain ((split '$' item).headD "") = some ln) (hda : resolveWrite ln item = some da)
    (hpm : s.writePermitted cfg domain da.fc = .ok ()) :
    Quiet s s.model (putItem s.model domain item v) := by
  intro hshp
  have hreports := (hx ht).1
  have hw : da.fc ∈ writableFcs cfg.writable := mem_writable_of_permitted hpm
  obtain ⟨⟨object, fc, path⟩, hpath, -⟩ := bind_eq_some_iff.mp hda
  refine ⟨refsKept_putItem hshp hpath ?_ ?_, sameSets_putItem⟩
  · rintro b hb hsite rfl
    rcases hreports b hb with hno | hne
    · rw [← fc_of_site (hshp b hb) hln hda hsite] at hno
      exact hno hw
    · exact hne hsite
  intro key lcb hlcb hsite n _
  exact no_log_of_plain hx ht hda hpm hpath key lcb hlcb hsite n

lemma quiet_setting (ht : s.target domain item = .setting attr) :
    Quiet s s.model (putItem s.model domain item v) := by
  have hsg : isSgcbWrite item = some attr := addressed_of_target ht
  have hpath : writePath item = some (sgcbName, .sp, [attr]) := by
    have hsp : Fc.parseLenient "SP" = .sp := by decide
    rw [writePath, isSgcbWrite_eq_some hsg]
    simp only [hsp]
  exact quiet_putItem hpath (by decide)

lemma quiet_sampled (ht : s.target domain item = .sampled key attr) (hda : resolveWrite ln item = some da) :
    Quiet s s.model (putItem s.model domain item v) := by
  have hkey : svcbKey s.svcbs domain item = some (key, attr) := addressed_of_target ht
  obtain ⟨⟨object, fc, path⟩, hpath, -⟩ := bind_eq_some_iff.mp hda
  refine quiet_putItem hpath ?_
  unfold svcbKey at hkey
  unfold writePath at hpath
  split at hkey
  next l f name rest hsplit =>
    split at hkey
    next hf =>
      rw [hsplit] at hpath
      rcases rest with _ | ⟨first, rest⟩
      · cases hpath
      obtain ⟨-, rfl, -⟩ : name = object ∧ Fc.parseLenient f = fc ∧ first :: rest = path := by
        simpa using hpath
      rcases hf with rfl | rfl <;> decide
    · cases hkey
  · cases hkey

lemma kept_report (hs : s.Hosted) (hr : w.ctx.render = render) (ht : s.target domain item = .report key attr)
    (hchk : s.check w domain v (.report key attr) = .ok ())
    (hln : s.model.node domain ((split '$' item).headD "") = some ln)
    (hda : resolveWrite ln item = some da) :
    let stored := { s with model := putItem s.model domain item v, changes := changes }
    Kept render s (effect w domain v s stored (.report key attr)).1 ∧
      (effect w domain v s stored (.report key attr)).1.Hosted := by
  intro stored
  rcases hfind : s.block key with _ | b
  · simp only [check, hfind] at hchk
    cases hchk
  simp only [check, hfind] at hchk
  have hb : b ∈ s.blocks := mem_of_find?_eq_some hfind
  obtain rfl : b.rs.key = key := by simpa using find?_some hfind
  have hnmd := hs.sited.placed.named b.rs (mem_map_of_mem hb)
  obtain ⟨hput, -⟩ := putItem_of_resolved (v := v) (hs.sited.shaped b hb) hnmd (addressed_of_target ht) hln hda
  have heq : (effect w domain v s stored (.report b.rs.key attr)).1 =
      s.appliedReport b w.ctx attr v w.conn (s.peer w.conn) changes := by
    simp only [effect, stored, hput]
    rfl
  rw [heq]
  refine ⟨kept_appliedReport hs hb hr hchk, ?_⟩
  refine hs.of_sites (onBlocks_rs _ _) ?_ (fun key lcb h => ⟨lcb, h, rfl⟩) rfl
  intro b' hb'
  exact shaped_frame hs hb hb' (appliedReport_frame hs hb)

lemma kept_log (hs : s.Hosted) (hr : w.ctx.render = render) (ht : s.target domain item = .log key attr)
    (hchk : s.check w domain v (.log key attr) = .ok ())
    (hda : resolveWrite ln item = some da) :
    let stored := { s with model := putItem s.model domain item v, changes := changes }
    Kept render s (effect w domain v s stored (.log key attr)).1 ∧
      (effect w domain v s stored (.log key attr)).1.Hosted := by
  intro stored
  obtain ⟨lcb, rest, hlcb, hd, hat, hsplit⟩ := lcbKey_own hs (addressed_of_target ht)
  obtain ⟨⟨object, fc, path⟩, hpath, -⟩ := bind_eq_some_iff.mp hda
  rcases rest with _ | ⟨first, rest⟩
  · rw [writePath, hsplit] at hpath
    cases hpath
  obtain rfl : attr = first := hat
  refine ⟨kept_appliedLog hs hlcb hr hd hsplit hchk, ?_⟩
  refine hs.of_sites rfl ?_ (fun k lcb h => (lcbs_onLcbWrite k lcb h).imp fun _ h => ⟨h.1, h.2.1⟩) rfl
  rintro b hb ⟨o, ho, hobj⟩
  refine ⟨o, ?_, hobj⟩
  rw [← ho]
  exact object_log_other hd hsplit (Ne.symm (hs.apart key lcb hlcb b hb))

lemma kept_effect {s₁ : Inner} (hs : s.Hosted) (hx : s.Checked cfg (.write w domain item v))
    (hchk : s.check w domain v (s.target domain item) = .ok ())
    (hstore : s.store cfg w domain item v (s.target domain item).controlBlock = .ok s₁) :
    Kept cfg.render s (effect w domain v s s₁ (s.target domain item)).1 ∧
      (effect w domain v s s₁ (s.target domain item)).1.Hosted := by
  obtain ⟨changes, ⟨ln, da, hln, hda, hpm, -, -⟩, rfl⟩ := store_eq_ok hstore
  cases ht : s.target domain item with
  | report key attr => exact kept_report hs hx.1 ht (ht ▸ hchk) hln hda
  | setting attr =>
    have hput : Quiet s s.model (putItem s.model domain item v) := quiet_setting ht
    dsimp only [effect]
    split
    · exact kept_of_quiet hs hput rfl rfl rfl
    · exact kept_of_quiet hs (hput.trans quiet_onSgcbWrite) rfl rfl rfl
  | log key attr => exact kept_log hs hx.1 ht (ht ▸ hchk) hda
  | sampled key attr =>
    exact kept_of_quiet hs (quiet_sampled ht hda) rfl rfl rfl
  | plain =>
    rw [ht] at hpm
    exact kept_of_quiet hs (quiet_plain hx.2 ht hln hda (hpm rfl)) rfl rfl rfl

lemma kept_track (hk : Kept render s t ∧ t.Hosted) (controlBlock : Bool) (res : Except DataAccessError Unit) :
    Kept render s (t.track w domain item v controlBlock res) ∧ (t.track w domain item v controlBlock res).Hosted := by
  have hrefs : RefsKept t t.model (t.track w domain item v controlBlock res).model :=
    refsKept_track hk.2 controlBlock res
  have hsets : t.model.SameSets (t.track w domain item v controlBlock res).model := sameSets_track controlBlock res
  obtain ⟨m, changes, -, heq⟩ := onlyTracked_track controlBlock res
  rw [heq] at hrefs hsets ⊢
  exact ⟨hk.1.still rfl rfl hrefs hsets, hk.2.of_sites rfl hrefs.shaped (fun key lcb h => ⟨lcb, h, rfl⟩) rfl⟩

lemma kept_self (hs : s.Hosted) : Kept render s s ∧ s.Hosted := kept_of_quiet hs .refl rfl rfl rfl

lemma kept_writeOne (hs : s.Hosted) (hx : s.Checked cfg (.write w domain item v)) :
    Kept cfg.render s (s.writeOne cfg w domain item v).1 ∧ (s.writeOne cfg w domain item v).1.Hosted :=
  writeOne_rule (kept_self hs) (fun _ _ _ hk => kept_track hk _ _) fun _ => kept_effect hs hx

lemma kept_serve (hs : s.Hosted) {x : Service} (hx : s.Checked cfg x) :
    Kept cfg.render s (s.serve cfg x) ∧ (s.serve cfg x).Hosted := by
  cases x with
  | write w domain item v => exact kept_writeOne hs hx
  | operate conn reference ctlVal =>
    refine kept_of_quiet hs ?_ rfl rfl rfl
    rcases serve_operate_model cfg s conn reference ctlVal with h | ⟨v, h⟩
    · rw [h]
      exact .refl
    · rw [h]
      exact quiet_setAttribute (by decide)
  | defineDataSet domain list items => exact kept_define hs
  | deleteDataSet domain list => exact kept_delete hs
  | endAssociation conn now =>
    dsimp only [serve, endAssociation]
    split
    · exact kept_self hs
    split
    · exact kept_self hs
    have hw : Worked s (step cfg s.toState (.endAssociation conn now)) := worked_endAssociation hs conn now
    have hend : ∀ b ∈ s.blocks, Shaped (step cfg s.toState (.endAssociation conn now)).model b.rs :=
      fun b hb => hw.refs.shaped b hb (hs.sited.shaped b hb)
    obtain ⟨hrefs, hsets⟩ := quiet_releaseSvcbs conn s.svcbs hend
    exact kept_of_worked hs ⟨hw.refs.trans hrefs, hw.sets.trans hsets, hw.rs, hw.fall⟩ rfl rfl
  | engine x =>
    dsimp only [serve]
    split
    · next hbg => exact kept_of_worked hs (worked_background hs hbg) rfl rfl
    · exact kept_self hs

end Inner

open Inner Table

/-- The names in a model tell its blocks apart, and no block is named as an object of a tracking node
where the server records writes. -/
@[mk_iff]
structure WellHosted (m : Model) : Prop extends WellNamed m where
  logs : ∀ ld ∈ m.devices, ∀ ln ∈ ld.nodes, ∀ lc ∈ ln.logControls, '\x00' ∉ lc.name.toList
  untracked : ∀ ld ∈ m.devices, ∀ ln ∈ ld.nodes, Tracker.isTrackingNode ln = true →
    ∀ name ∈ ln.reportControls.flatMap rcbInstanceNames ++ ln.logControls.map LogControl.name,
      Text.trimEndDigits name ∉ trackingKinds

instance (m : Model) : Decidable (WellHosted m) := decidable_of_iff' _ (wellHosted_iff m)

namespace Inner
variable {opts : Options} {m : Model} {ln : LogicalNode}

lemma served_node {ld : LogicalDevice} (hld : ld ∈ (servedModel opts m).devices)
    (hln : ln ∈ ld.nodes) : ∃ ld0 ∈ (blocksModel opts m).devices, ∃ ln0 ∈ ld0.nodes, ld.name = ld0.name ∧
      ln = { ln0 with objects :=
        ln0.objects ++ (materialiseNode ld0.name opts.reportBufferSize ln0).map Prod.fst } := by
  obtain ⟨ld0, hld0, rfl⟩ := mem_map.mp hld
  obtain ⟨ln0, hln0, rfl⟩ := mem_map.mp hln
  exact ⟨ld0, hld0, ln0, hln0, rfl, rfl⟩

lemma report_place {b : Block} (hb : b ∈ (new opts m).blocks) : ∃ ld ∈ (blocksModel opts m).devices, ∃ ln ∈ ld.nodes,
      ∃ name ∈ ln.reportControls.flatMap rcbInstanceNames, b.rs.path = (ld.name, ln.name, name) := by
  obtain ⟨ld, hld, ln, hln, rc, hrc, i, name, hnm, heq⟩ :=
    ((started_start (blocksModel opts m) opts.reportBufferSize opts.runtime).block hb).1.instance_of
  have hrs := materialiseRcb_rs opts.reportBufferSize ld.name ln.name rc i name
  rw [heq] at hrs
  dsimp only at hrs
  have hm := mem_flatMap.mpr ⟨rc, hrc, mem_of_getElem? hnm⟩
  refine ⟨ld, hld, ln, hln, name, hm, ?_⟩
  rw [hrs]
  rfl

lemma head_of_report {d : String} {o : DataObject} {bufDefault : ℕ}
    (ho : o ∈ (materialiseNode d bufDefault ln).map Prod.fst) :
    ((o.attributes.head?).map fun a => a.fc.asStr == "LG").getD false = false := by
  obtain ⟨⟨o, rs, st⟩, hx, rfl⟩ := mem_map.mp ho
  obtain ⟨rc, -, hx⟩ := mem_flatMap.mp hx
  obtain ⟨i, hi, heq⟩ := mem_mapIdx.mp hx
  have hobj := rcbObject_materialiseRcb (congrArg Prod.snd heq)
  rw [heq] at hobj
  rcases hhead : o.attributes.head? with _ | a
  · rfl
  have hfc : a.fc = rs.fc := (hobj.attributes a (mem_of_head? hhead)).1
  have hne : rs.fc.asStr ≠ "LG" := by
    unfold RcbState.fc
    split <;> decide
  simp [hfc, hne]

lemma log_place (hw : WellHosted (blocksModel opts m)) : (new opts m).lcbs.All fun _ lcb =>
      ∃ ld ∈ (blocksModel opts m).devices, ∃ ln ∈ ld.nodes, ∃ lc ∈ ln.logControls,
        lcb.path = (ld.name, ln.name, lc.name) ∧ lc.name ∈ ln.objects.map DataObject.name := by
  apply logs_new
  · intro ld hld ln hln lc hlc hsome
    obtain ⟨o, ho⟩ := ne_none_iff_exists'.mp (mt isNone_iff_eq_none.mpr hsome)
    obtain ⟨n, hn, hfind⟩ := bind_eq_some_iff.mp ho
    have hm := mem_of_find?_eq_some hfind
    have htest := find?_some hfind
    simp only [Bool.and_eq_true, beq_iff_eq] at htest
    have hnname : n.name = ln.name := by simpa using find?_some hn
    obtain ⟨ld0, hld0, ln0, hln0, hd, rfl⟩ := served_node hld hln
    obtain ⟨ld1, hld1, ln1, hln1, hd1, rfl⟩ := served_node hld (mem_of_find?_eq_some hn)
    -- The node that is searched is the one with the log control: names tell nodes apart.
    obtain rfl := inj_on_of_nodup_map hw.devices hld1 hld0 (hd1.symm.trans hd)
    obtain rfl := inj_on_of_nodup_map (hw.nodes ld1 hld1) hln1 hln0 hnname
    refine ⟨ld1, hld0, ln1, hln0, lc, hlc, by rw [path, hd], ?_⟩
    rcases mem_append.mp hm with hin | hin
    · exact mem_map.mpr ⟨o, hin, htest.1⟩
    have hnot := head_of_report hin
    rw [htest.2] at hnot
    cases hnot
  rintro _ lcb ⟨ld, hld, ln, hln, lc, hlc, hpath, hobj⟩
  refine ⟨ld, hld, ln, hln, lc, hlc, ?_, hobj⟩
  obtain ⟨h1, h2, h3⟩ := startIntegrity_site (servedModel opts m) opts.runtime lcb
  rw [← hpath, path, h1, h2, h3, path]

lemma hosted_new (hw : WellHosted (blocksModel opts m)) : (new opts m).Hosted := by
  have hdevice {ld ld'} (hld : ld ∈ (blocksModel opts m).devices) (hld' : ld' ∈ (blocksModel opts m).devices)
      (h : ld.name = ld'.name) : ld = ld' := inj_on_of_nodup_map hw.devices hld hld' h
  have hnd {ld} (hld : ld ∈ (blocksModel opts m).devices) {ln ln'} (hln : ln ∈ ld.nodes)
      (hln' : ln' ∈ ld.nodes) (h : ln.name = ln'.name) : ln = ln' :=
    inj_on_of_nodup_map (hw.nodes ld hld) hln hln' h
  constructor
  case sited => exact (started_start _ _ _).sited hw.toWellNamed
  case keys => exact (registered_new opts m).logs
  case plain =>
    intro key lcb hlcb
    obtain ⟨ld, hld, ln, hln, lc, hlc, hpath, -⟩ := log_place hw key lcb hlcb
    obtain ⟨h1, h2, h3⟩ := triple_inj hpath
    obtain ⟨hd, hl⟩ := hw.plain ld hld
    have hsep : '\x00' ∉ "$LG$".toList := by decide
    have hnm := hw.logs ld hld ln hln lc hlc
    rw [h1, h2, h3]
    refine ⟨hd, ?_⟩
    simp only [String.toList_append, mem_append, not_or]
    exact ⟨⟨(hl ln hln).1, hsep⟩, hnm⟩
  case apart =>
    intro key lcb hlcb b hb heq
    obtain ⟨ld, hld, ln, hln, lc, -, hpath, hobj⟩ := log_place hw key lcb hlcb
    obtain ⟨ld', hld', ln', hln', name, hnm, hpath'⟩ := report_place hb
    rw [hpath, hpath'] at heq
    obtain ⟨h1, h2, h3⟩ := triple_inj heq
    obtain rfl := hdevice hld hld' h1
    obtain rfl := hnd hld hln hln' h2
    exact (nodup_append.mp (hw.objects ld hld ln hln)).2.2 _ hobj _ hnm h3
  case untracked =>
    intro o ho
    obtain ⟨ld, hld, ln, hln, htracking, object, -, hkd, rfl⟩ := trackingObject_of_has ho
    obtain ⟨ld0, hld0, ln0, hln0, hd, rfl⟩ := served_node hld hln
    have hfree := hw.untracked ld0 hld0 ln0 hln0 htracking
    constructor
    · intro b hb heq
      obtain ⟨ld', hld', ln', hln', name, hnm, hpath⟩ := report_place hb
      rw [hpath, hd] at heq
      obtain ⟨h1, h2, h3⟩ := triple_inj heq
      obtain rfl := hdevice hld' hld0 h1
      obtain rfl := hnd hld' hln' hln0 h2
      exact hfree name (mem_append_left _ hnm) (h3 ▸ hkd)
    intro key lcb hlcb heq
    obtain ⟨ld', hld', ln', hln', lc, hlc, hpath, -⟩ := log_place hw key lcb hlcb
    rw [hpath, hd] at heq
    obtain ⟨h1, h2, h3⟩ := triple_inj heq
    obtain rfl := hdevice hld' hld0 h1
    obtain rfl := hnd hld' hln' hln0 h2
    have hm : lc.name ∈ ln'.logControls.map LogControl.name := mem_map_of_mem hlc
    exact hfree lc.name (mem_append_right _ hm) (h3 ▸ hkd)

lemma referential_new {render : Render}
    (hlogs : (new opts m).lcbs.All fun _ lcb => lcbEnabled (servedModel opts m) lcb →
      (resolveDataSet (servedModel opts m) (lcbDatSet render (servedModel opts m) lcb)).isSome) :
    (new opts m).Referential render := by
  intro id r hon
  cases hon with
  | @report b mem on =>
    have hstarted := started_start (blocksModel opts m) opts.reportBufferSize opts.runtime
    obtain ⟨ip, hst⟩ := (hstarted.block mem).1.fresh
    rw [hst] at on
    cases on
  | @log key lcb known on => exact hlogs key lcb known on

variable {cfg : Config} {s : Inner} {services : List Service}

/-- Every service of a run goes by the checks of the control blocks. -/
def RunChecked (cfg : Config) (s : Inner) (services : List Service) : Prop :=
  Runs.Admitted (serve cfg) (Checked cfg) s services

lemma run_append (s : Inner) (before after : List Service) :
    s.run cfg (before ++ after) = (s.run cfg before).run cfg after := foldl_append

lemma RunChecked.append {before after : List Service} (h : RunChecked cfg s (before ++ after)) :
    RunChecked cfg s before ∧ RunChecked cfg (s.run cfg before) after := by
  induction before generalizing s with
  | nil => exact ⟨trivial, h⟩
  | cons x rest ih =>
    obtain ⟨hrs, haft⟩ := ih h.2
    exact ⟨⟨h.1, hrs⟩, haft⟩

section
variable (hs : s.Hosted)
include hs

lemma hosted_run (hc : RunChecked cfg s services) : (s.run cfg services).Hosted :=
  Runs.induction_admitted Hosted (fun _ _ h hx => (kept_serve h hx).2) hs hc

lemma referential_run (hr : s.Referential cfg.render) (hc : RunChecked cfg s services) :
    (s.run cfg services).Referential cfg.render := by
  refine (Runs.induction_admitted (fun t => t.Hosted ∧ t.Referential cfg.render) ?_ ⟨hs, hr⟩ hc).2
  intro t x ht hx
  obtain ⟨hkp, hosted⟩ := kept_serve ht.1 hx
  exact ⟨hosted, hkp.referential ht.2⟩

lemma configured_run {d l ds : String} {x : DataSet} (hc : RunChecked cfg s services)
    (hx : s.model.dataSetAt d l ds = some x) (hfixed : x.deletable = false) :
    (s.run cfg services).model.dataSetAt d l ds = some x := by
  refine (Runs.induction_admitted (fun t => t.Hosted ∧ t.model.dataSetAt d l ds = some x) ?_ ⟨hs, hx⟩ hc).2
  intro t y ht hy
  obtain ⟨hkp, hosted⟩ := kept_serve ht.1 hy
  exact ⟨hosted, hkp.named d l ds x ht.2 (.inl hfixed)⟩

lemma enabled_run {id : BlockId} {r : String} {ms : List DsMember}
    (hc : RunChecked cfg s services) (hon : s.Enabled cfg.render id r)
    (hms : resolveDataSet s.model r = some ms)
    (hsty : ∀ part, part <+: services → ∃ r', (s.run cfg part).Enabled cfg.render id r') :
    (s.run cfg services).Enabled cfg.render id r ∧ resolveDataSet (s.run cfg services).model r = some ms := by
  induction services generalizing s with
  | nil => exact ⟨hon, hms⟩
  | cons x rest ih =>
    obtain ⟨hkp, hosted⟩ := kept_serve hs hc.1
    obtain ⟨r', hon'⟩ := hsty [x] ⟨rest, rfl⟩
    obtain rfl : r' = r := hkp.same id r r' hon hon'
    apply ih hosted hc.2 hon' (hkp.members hon hms)
    intro part hpart
    exact hsty (x :: part) ((prefix_cons_inj x).mpr hpart)

end

def loggedModel (dataSet : String) : Model :=
  let sample := sampleModel { name := "u", dataSet := "ds" }
  let log : LogControl := { name := "lg", dataSet := dataSet, logName := "EventLog", logEna := true }
  { sample with devices := sample.devices.map fun ld =>
      { ld with nodes := ld.nodes.map fun ln => { ln with logControls := [log] } } }

def reportOnCreated : List Service :=
  [.defineDataSet "LD" "LLN0$own" [("LD", "LLN0$ST$Pos$stVal")],
    .engine (.connect none 65000),
    .write (writeBy 1) "LD" "LLN0$RP$u01$DatSet" (Value.visibleText "LD/LLN0$own"),
    .write (writeBy 1) "LD" "LLN0$RP$u01$RptEna" (.boolean true),
    .deleteDataSet "LD" "LLN0$own"]

/-- In every state of a run by the checks of the control blocks: an enabled block names a data set that exists,
the configured data sets are as they were, the next service leaves each data set that a block names, and a block
enabled since some state has the data set of that state. -/
theorem data_sets_referenced (cfg : Config) (opts : Options) (m : Model) (services : List Service)
    (hw : WellHosted (blocksModel opts m))
    (hlogs : (new opts m).lcbs.All fun _ lcb => lcbEnabled (servedModel opts m) lcb = true →
      (resolveDataSet (servedModel opts m) (lcbDatSet cfg.render (servedModel opts m) lcb)).isSome = true)
    (hc : RunChecked cfg (new opts m) services) : ((new opts m).run cfg services).Referential cfg.render ∧
    (∀ d l ds x, (servedModel opts m).dataSetAt d l ds = some x → x.deletable = false →
      ((new opts m).run cfg services).model.dataSetAt d l ds = some x) ∧
    (∀ y, ((new opts m).run cfg services).Checked cfg y →
      ∀ d l ds x, ((new opts m).run cfg services).model.dataSetAt d l ds = some x →
        ((new opts m).run cfg services).Named cfg.render d l ds →
        (((new opts m).run cfg services).serve cfg y).model.dataSetAt d l ds = some x) ∧
    (∀ before during, services = before ++ during → ∀ id r ms,
      ((new opts m).run cfg before).Enabled cfg.render id r →
      resolveDataSet ((new opts m).run cfg before).model r = some ms → (∀ part, part <+: during →
        ∃ r', ((new opts m).run cfg (before ++ part)).Enabled cfg.render id r') →
      ((new opts m).run cfg services).Enabled cfg.render id r ∧
        resolveDataSet ((new opts m).run cfg services).model r = some ms) := by
  have hs := hosted_new hw
  refine ⟨referential_run hs (referential_new hlogs) hc, ?_, ?_, ?_⟩
  · intro d l ds x hx hfixed
    exact configured_run hs hc hx hfixed
  · intro y hy d l ds x hx hnmd
    exact (kept_serve (hosted_run hs hc) hy).1.named d l ds x hx (.inr hnmd.inUse)
  rintro before during rfl id r ms hon hms hsty
  obtain ⟨hbef, hduring⟩ := hc.append
  rw [run_append]
  apply enabled_run (hosted_run hs hbef) hduring hon hms
  intro part hpart
  rw [← run_append]
  exact hsty part hpart

/-- The data set a client created stays while its block is enabled, though another client asks to
delete it. -/
theorem created_set_referenced : ((new {} (loggedModel "ds")).run sampleConfig reportOnCreated).blocks.map
        (fun b => b.st.enabled) = [true] ∧
      ((new {} (loggedModel "ds")).run sampleConfig reportOnCreated).Referential sampleConfig.render := by
  refine ⟨by decide +kernel, ?_⟩
  have hlogs : (new {} (loggedModel "ds")).lcbs.All fun _ lcb =>
      lcbEnabled (servedModel {} (loggedModel "ds")) lcb = true →
        (resolveDataSet (servedModel {} (loggedModel "ds"))
          (lcbDatSet sampleConfig.render (servedModel {} (loggedModel "ds")) lcb)).isSome = true :=
    all_of_entries (by decide +kernel)
  have hc : RunChecked sampleConfig (new {} (loggedModel "ds")) reportOnCreated := by
    refine ⟨trivial, trivial, ⟨rfl, ?_⟩, ⟨rfl, ?_⟩, trivial, trivial⟩
    · intro h
      exact absurd h (by decide +kernel)
    · intro h
      exact absurd h (by decide +kernel)
  exact (data_sets_referenced sampleConfig {} (loggedModel "ds") reportOnCreated (by decide +kernel) hlogs hc).1

/-- A log control that names no data set is enabled all the same when the server starts. -/
theorem log_enabled_without_set : WellHosted (blocksModel {} (loggedModel "")) ∧
      ¬ (new {} (loggedModel "")).Referential sampleConfig.render := by
  refine ⟨by decide +kernel, ?_⟩
  intro h
  let s := new {} (loggedModel "")
  have hknown : (s.lcbs.lookup "LD\x00LLN0$LG$lg").isSome = true := by decide +kernel
  obtain ⟨lcb, hlcb⟩ := isSome_iff_exists.mp hknown
  have hview : s.lcbs.All fun _ lcb => lcbEnabled s.model lcb = true ∧
      resolveDataSet s.model (lcbDatSet sampleConfig.render s.model lcb) = none :=
    all_of_entries (by decide +kernel)
  obtain ⟨hon, hno⟩ := hview _ lcb hlcb
  have hsome := h _ _ (.log hlcb hon)
  rw [hno] at hsome
  cases hsome

end Inner
end Iec61850.Server
