import Iec61850.PathTree
import Iec61850.ServerHandler

/-! Reads against declared types, and the directory of a logical device against what its items resolve to. -/
namespace Iec61850.Access
open Mms DataObject List Option TypeSpec

mutual
def Valued : DataAttribute → Prop
  | ⟨_, _, kind, _, _, children, value, _, _⟩ =>
    if children.isEmpty then value.isSome ∨ ¬ (kind = none ∨ kind = some .none)
    else AllValued children

def AllValued : List DataAttribute → Prop
  | [] => True
  | c :: cs => Valued c ∧ AllValued cs
end

mutual
def decidableValued : (a : DataAttribute) → Decidable (Valued a)
  | ⟨_, _, _, _, _, children, _, _, _⟩ =>
    have := decidableAllValued children
    inferInstanceAs (Decidable (ite _ _ _))

def decidableAllValued : (as : List DataAttribute) → Decidable (AllValued as)
  | [] => instDecidableTrue
  | c :: cs =>
    have := decidableValued c
    have := decidableAllValued cs
    inferInstanceAs (Decidable (_ ∧ _))
end

instance (a : DataAttribute) : Decidable (Valued a) := decidableValued a

def LeafTyped (kind : Option ValueType) (btype : String) (count : ℕ) : Option Value → Prop
  | some v => v.conforms (leafTypeSpec kind btype count (some v)) = true
  | none => ¬ (kind = none ∨ kind = some .none) ∧ btypeTypeSpec btype = none

mutual
def DaTyped : DataAttribute → Prop
  | ⟨_, _, kind, btype, count, children, value, _, _⟩ =>
    if children.isEmpty then LeafTyped kind btype count value
    -- An array without elements shows no leaf, but it is composed from them.
    else if kind = some .array ∧ count = 0 then AllValued children
    else AllTyped children

def AllTyped : List DataAttribute → Prop
  | [] => True
  | c :: cs => DaTyped c ∧ AllTyped cs
end

mutual
def ObjectTyped (fc : Fc) : DataObject → Prop
  | ⟨_, objects, attributes, _⟩ =>
    AllTyped (attributes.filter fun a => a.fc == fc) ∧ ObjectsTyped fc objects

def ObjectsTyped (fc : Fc) : List DataObject → Prop
  | [] => True
  | s :: ss => (hasFc s fc = true → ObjectTyped fc s) ∧ ObjectsTyped fc ss
end

mutual
def Produced (fc : Fc) : DataObject → Prop
  | ⟨_, objects, attributes, _⟩ =>
    (∀ a ∈ attributes, a.fc = fc → Valued a) ∧ ((∃ a ∈ attributes, a.fc = fc) ∨ SomeProduced fc objects)

def SomeProduced (fc : Fc) : List DataObject → Prop
  | [] => False
  | s :: ss => Produced fc s ∨ SomeProduced fc ss
end

mutual
def decidableProduced (fc : Fc) : (o : DataObject) → Decidable (Produced fc o)
  | ⟨_, objects, _, _⟩ =>
    have := decidableSomeProduced fc objects
    inferInstanceAs (Decidable (_ ∧ _))

def decidableSomeProduced (fc : Fc) : (objects : List DataObject) → Decidable (SomeProduced fc objects)
  | [] => instDecidableFalse
  | s :: ss =>
    have := decidableProduced fc s
    have := decidableSomeProduced fc ss
    inferInstanceAs (Decidable (_ ∨ _))
end

instance (fc : Fc) (o : DataObject) : Decidable (Produced fc o) := decidableProduced fc o

/-- The part of a data object that a path addresses is typed. -/
def TypedBelow (fc : Fc) : List String → DataObject → Prop
  | [], o => ObjectTyped fc o
  | first :: rest, o =>
    match o.child first with
    | some sub => TypedBelow fc rest sub
    | none =>
      match (o.attributes.find? fun a => a.name == first && a.fc == fc).bind (·.descend rest) with
      | some da => DaTyped da
      | none => True

/-- Every leaf an item covers holds a value of its declared type. -/
def ItemTyped (ln : LogicalNode) (item : String) : Prop :=
  match splitItem item with
  | none => True
  | some (fc, []) => ObjectsTyped fc ln.objects
  | some (fc, object :: rest) =>
    match ln.object object with
    | some o => TypedBelow fc rest o
    | none => True

mutual
theorem isSome_daValueOpt : ∀ a : DataAttribute, (daValueOpt a).isSome ↔ Valued a
  | ⟨_, _, kind, _, count, children, value, _, _⟩ => by
    rw [daValueOpt.eq_def, Valued]
    dsimp only
    split
    · cases value with
      | some v => simp
      | none => by_cases hk : kind = none ∨ kind = some .none <;> simp [hk]
    · simp [isSome_daValues children]

theorem isSome_daValues : ∀ as : List DataAttribute, (daValues as).isSome ↔ AllValued as
  | [] => by simp [daValues, AllValued]
  | c :: cs => by
    rw [AllValued, ← isSome_daValueOpt c, ← isSome_daValues cs, daValues]
    cases daValueOpt c with
    | none => simp
    | some v => cases daValues cs <;> simp
end

mutual
theorem DaTyped.valued : ∀ a : DataAttribute, DaTyped a → Valued a
  | ⟨_, _, kind, btype, count, children, value, _, _⟩ => by
    rw [DaTyped, Valued]
    intro h
    split at h
    next hleaf =>
      rw [if_pos hleaf]
      cases value with
      | some v => exact .inl rfl
      | none => exact .inr h.1
    next hnd =>
      rw [if_neg hnd]
      split at h
      · exact h
      · exact AllTyped.valued children h

theorem AllTyped.valued : ∀ as : List DataAttribute, AllTyped as → AllValued as
  | [], _ => trivial
  | c :: cs, h => ⟨DaTyped.valued c h.1, AllTyped.valued cs h.2⟩
end

variable {btype : String} {t : TypeSpec} {v : Value}

lemma kind_btypeTypeSpec (h : btypeTypeSpec btype = some t) : t.kind ≠ some .boolean := by
  have hall : ∀ e ∈ btypes, (sized e.2.1 e.2.2).kind ≠ some .boolean := by decide
  obtain ⟨e, he, rfl⟩ := map_eq_some_iff.mp h
  exact hall e (mem_of_find?_eq_some he)

lemma leaf_conforms {kind : Option ValueType} {count : ℕ} {value : Option Value} (h : (match value with
      | some v => some v
      | none => if kind = none ∨ kind = some .none then none else some (.boolean false)) = some v) :
    v.conforms (leafTypeSpec kind btype count value) ↔ LeafTyped kind btype count value := by
  cases value with
  | some w =>
    cases h
    exact Iff.rfl
  | none =>
    by_cases hk : kind = none ∨ kind = some .none
    · simp [hk] at h
    simp only [hk, if_false, some.injEq] at h
    subst h
    unfold LeafTyped leafTypeSpec
    rcases hb : btypeTypeSpec btype with _ | el
    · simp [hk, Value.conforms, scalar, Value.typeOf]
    have hkd := kind_btypeTypeSpec hb
    by_cases ha : kind = some .array
    · simp [ha, Value.conforms, array, Value.typeOf]
    · simp [ha, Value.conforms, Value.typeOf, hkd]

mutual
theorem da_conforms : ∀ (a : DataAttribute) (v : Value), daValueOpt a = some v →
    (v.conforms (daTypeSpec a) ↔ DaTyped a)
  | ⟨_, _, kind, btype, count, children, value, _, _⟩, v => by
    rw [daValueOpt.eq_def, daTypeSpec, DaTyped]
    intro h
    dsimp only at h
    split at h
    next hleaf =>
      rw [if_pos hleaf, if_pos hleaf]
      exact leaf_conforms h
    next hnd =>
    rw [if_neg hnd, if_neg hnd]
    obtain ⟨members, hm, hv⟩ := map_eq_some_iff.mp h
    have hmbs := das_conform children members hm
    have hvalued : AllValued children := by
      rw [← isSome_daValues, hm]
      rfl
    subst hv
    by_cases ha : kind = some .array
    · simp only [ha, if_true, Value.conforms_array_replicate, Value.conforms_struct, true_and]
      by_cases hc : count = 0
      · simp [hc, hvalued]
      · simp [hc, hmbs]
    · simp [ha, hmbs]

theorem das_conform : ∀ (as : List DataAttribute) (vs : List Value), daValues as = some vs →
    (Value.conformEach vs (daTypeSpecs as) ↔ AllTyped as)
  | [], vs => by
    intro h
    cases h
    simp [daTypeSpecs, AllTyped, Value.conformEach]
  | c :: cs, vs => by
    intro h
    rw [daValues] at h
    obtain ⟨v, hv, hrs⟩ := bind_eq_some_iff.mp h
    obtain ⟨ws, hws, rfl⟩ := map_eq_some_iff.mp hrs
    simp only [daTypeSpecs, AllTyped, Value.conformEach, Bool.and_eq_true, da_conforms c v hv, das_conform cs ws hws]
end

lemma length_daTypeSpecs (as : List DataAttribute) : (daTypeSpecs as).length = as.length := by
  induction as with
  | nil => rfl
  | cons a as ih => simp [daTypeSpecs, ih]

lemma length_daValues {as : List DataAttribute} {vs : List Value} (h : daValues as = some vs) :
    vs.length = (daTypeSpecs as).length := by
  induction as generalizing vs with
  | nil =>
    cases h
    rfl
  | cons c cs ih =>
    rw [daValues] at h
    obtain ⟨v, -, hrs⟩ := bind_eq_some_iff.mp h
    obtain ⟨ws, hws, rfl⟩ := map_eq_some_iff.mp hrs
    simp [daTypeSpecs, ih hws]

variable {fc : Fc} {o : DataObject} {as : List DataAttribute}

lemma hasFc_iff : hasFc o fc ↔ o.Carries fc := by
  rw [hasFc, contains_iff_mem, mem_fcs]

lemma allTyped_iff : AllTyped as ↔ ∀ a ∈ as, DaTyped a := by
  induction as with
  | nil => simp [AllTyped]
  | cons a as ih => simp [AllTyped, ih]

lemma doValue_eq_some (h : doValue fc o = some v) :
    ∃ own, daValues (o.attributes.filter fun a => a.fc == fc) = some own ∧
      own ++ doValues fc o.objects ≠ [] ∧ v = .struct (own ++ doValues fc o.objects) := by
  cases o with
  | mk name objects attributes cdc =>
    rw [doValue] at h
    obtain ⟨own, hown, hmbs⟩ := bind_eq_some_iff.mp h
    dsimp only at hmbs
    split at hmbs
    · cases hmbs
    next hne =>
      refine ⟨own, hown, ?_, (some.inj hmbs).symm⟩
      simpa using hne

lemma doValues_cons (s : DataObject) (ss : List DataObject) :
    doValues fc (s :: ss) = (doValue fc s).toList ++ doValues fc ss := by
  rw [doValues]
  rcases h : doValue fc s with _ | v
  · rfl
  obtain ⟨own, -, hne, rfl⟩ := doValue_eq_some h
  have hfull : ¬ (Value.struct (own ++ doValues fc s.objects)).children.isEmpty := by
    simpa [Value.children] using hne
  exact if_neg hfull

lemma doValues_eq_filterMap (objects : List DataObject) : doValues fc objects = objects.filterMap (doValue fc) := by
  induction objects with
  | nil => rfl
  | cons s ss ih =>
    rw [doValues_cons, ih, filterMap_cons]
    cases doValue fc s <;> rfl

lemma allValued_iff : AllValued as ↔ ∀ a ∈ as, Valued a := by
  induction as with
  | nil => simp [AllValued]
  | cons a as ih => simp [AllValued, ih]

mutual
theorem isSome_doValue : ∀ o : DataObject, (doValue fc o).isSome ↔ Produced fc o
  | ⟨_, objects, attributes, _⟩ => by
    rw [doValue, Produced, ← doValues_ne_nil objects]
    have hvalued : (daValues (attributes.filter fun a => a.fc == fc)).isSome ↔
        ∀ a ∈ attributes, a.fc = fc → Valued a := by
      rw [isSome_daValues, allValued_iff]
      simp
    rcases hown : daValues (attributes.filter fun a => a.fc == fc) with _ | own
    · have hnot : ¬ ∀ a ∈ attributes, a.fc = fc → Valued a := by rw [← hvalued, hown]; decide
      simp [hnot]
    rw [hown] at hvalued
    have hemp : own = [] ↔ ¬ ∃ a ∈ attributes, a.fc = fc := by
      rw [← length_eq_zero_iff, length_daValues hown, length_daTypeSpecs]
      simp
    have hmbs : own ++ doValues fc objects = [] ↔
        ¬ ((∃ a ∈ attributes, a.fc = fc) ∨ doValues fc objects ≠ []) := by
      rw [append_eq_nil_iff, hemp, not_or, not_not]
    rw [bind_some, ← hvalued]
    dsimp only
    split
    next hnil =>
      have hno := hmbs.mp (isEmpty_iff.mp hnil)
      simp only [isSome_none, Bool.false_eq_true, false_iff, not_and]
      exact fun _ => hno
    next hne =>
      have hyes := not_not.mp (mt hmbs.mpr fun h => hne (isEmpty_iff.mpr h))
      simp only [isSome_some, true_and, true_iff]
      exact hyes

theorem doValues_ne_nil : ∀ objects : List DataObject, doValues fc objects ≠ [] ↔ SomeProduced fc objects
  | [] => by simp [doValues, SomeProduced]
  | s :: ss => by
    rw [doValues_cons, SomeProduced, ← isSome_doValue s, ← doValues_ne_nil ss]
    cases doValue fc s <;> simp
end

mutual
theorem Produced.carries : ∀ o : DataObject, Produced fc o → o.Carries fc
  | ⟨_, objects, attributes, _⟩, h => by
    rw [Produced] at h
    rw [Carries]
    exact h.2.imp id (SomeProduced.carriesAny objects)

theorem SomeProduced.carriesAny : ∀ objects : List DataObject, SomeProduced fc objects → CarriesAny fc objects
  | [], h => h.elim
  | s :: ss, h => h.imp (Produced.carries s) (SomeProduced.carriesAny ss)
end

lemma doValue_eq_none (h : hasFc o fc = false) : doValue fc o = none := by
  rw [← not_isSome_iff_eq_none, isSome_doValue]
  intro hp
  rw [hasFc_iff.mpr hp.carries] at h
  cases h

mutual
theorem ObjectTyped.produced : ∀ o : DataObject, o.Carries fc → ObjectTyped fc o → Produced fc o
  | ⟨_, objects, attributes, _⟩ => by
    intro hc ht
    rw [ObjectTyped] at ht
    rw [Produced]
    constructor
    · intro a ha hfc
      have hm : a ∈ attributes.filter fun a => a.fc == fc := by simp [ha, hfc]
      exact DaTyped.valued a (allTyped_iff.mp ht.1 a hm)
    · rw [Carries] at hc
      exact hc.imp id fun hsub => ObjectsTyped.someProduced objects hsub ht.2

theorem ObjectsTyped.someProduced : ∀ objects : List DataObject,
    CarriesAny fc objects → ObjectsTyped fc objects → SomeProduced fc objects
  | [], h, _ => h.elim
  | s :: ss, h, ht =>
    h.imp (fun hs => ObjectTyped.produced s hs (ht.1 (hasFc_iff.mpr hs)))
      fun hss => ObjectsTyped.someProduced ss hss ht.2
end

lemma length_doValues_le (objects : List DataObject) :
    (doValues fc objects).length ≤ (doTypeSpecs fc objects).length := by
  induction objects with
  | nil => simp [doValues, doTypeSpecs]
  | cons s ss ih =>
    rw [doValues_cons, doTypeSpecs]
    rcases hf : hasFc s fc with _ | _
    · simpa [doValue_eq_none hf] using ih
    have hone : (doValue fc s).toList.length ≤ 1 := by cases doValue fc s <;> simp
    simp only [length_append, if_true, length_cons]
    omega

mutual
theorem do_conforms : ∀ (o : DataObject) (v : Value), doValue fc o = some v →
    (v.conforms (doTypeSpec fc o) ↔ ObjectTyped fc o)
  | ⟨name, objects, attributes, cdc⟩, v => by
    intro h
    obtain ⟨own, hown, -, rfl⟩ := doValue_eq_some h
    rw [doTypeSpec, ObjectTyped, Value.conforms_struct,
      Value.conformEach_append (length_daValues hown), Bool.and_eq_true, das_conform _ own hown,
      dos_conform objects]

theorem dos_conform : ∀ objects : List DataObject, Value.conformEach (doValues fc objects) (doTypeSpecs fc objects) ↔
      ObjectsTyped fc objects
  | [] => by simp [doValues, doTypeSpecs, ObjectsTyped, Value.conformEach]
  | s :: ss => by
    rw [doValues_cons, doTypeSpecs, ObjectsTyped]
    rcases hf : hasFc s fc with _ | _
    · simp [doValue_eq_none hf, dos_conform ss]
    cases hv : doValue fc s with
    | some v =>
      simp [Value.conformEach, do_conforms s v hv, dos_conform ss]
    | none =>
      have hsh : (doValues fc ss).length ≤ (doTypeSpecs fc ss).length := length_doValues_le ss
      constructor
      · intro h
        have hlen := Value.conformEach_length h
        simp only [toList_none, nil_append, if_true, length_cons] at hlen
        omega
      · intro h
        have hsome := (isSome_doValue s).mpr (ObjectTyped.produced s (hasFc_iff.mp hf) (h.1 rfl))
        simp [hv] at hsome
end

lemma below_conforms {path : List String} (hv : readBelow fc path o = .ok v) (ht : typeBelow fc path o = some t) :
    v.conforms t ↔ TypedBelow fc path o := by
  induction path generalizing o with
  | nil =>
    rw [readBelow] at hv
    rcases hd : doValue fc o with _ | w
    · rw [hd] at hv; cases hv
    rw [hd] at hv
    cases hv
    cases ht
    exact do_conforms o v hd
  | cons first rest ih =>
    rw [readBelow] at hv
    rw [typeBelow] at ht
    rw [TypedBelow]
    cases hc : o.child first with
    | some sub =>
      simp only [hc] at hv ht
      exact ih hv ht
    | none =>
      simp only [hc] at hv ht
      cases hda : (o.attributes.find? fun a => a.name == first && a.fc == fc).bind (·.descend rest) with
      | none => rw [hda] at ht; cases ht
      | some da =>
        simp only [hda] at hv
        rw [hda] at ht
        cases ht
        rcases hval : daValueOpt da with _ | w
        · rw [hval] at hv; cases hv
        rw [hval] at hv
        cases hv
        exact da_conforms da v hval

/-- A value read from an item conforms to the type declared for it exactly when every leaf it covers holds a
value of its own declared type. -/
theorem read_conforms_iff (ln : LogicalNode) (item : String) (v : Value) (t : TypeSpec)
    (hv : resolveRead ln item = some v) (ht : typeSpecFor ln item = some t) :
    v.conforms t = true ↔ ItemTyped ln item := by
  have hrd : resolveReadErr ln item = .ok v := by
    unfold resolveRead at hv
    rcases hr : resolveReadErr ln item with e | w
    · rw [hr] at hv; cases hv
    rw [hr] at hv
    cases hv
    rfl
  unfold resolveReadErr splitItem at hrd
  unfold typeSpecFor at ht
  unfold ItemTyped splitItem
  -- Both sides read the item by its components: the constraint alone, or a path below an object.
  match hps : Text.split '$' item with
  | [] => simp [hps] at hrd
  | [_] => simp [hps] at hrd
  | [_, fc] =>
    simp only [hps, Except.ok.injEq, some.injEq] at hrd ht
    subst hrd ht
    rw [fcTypeSpec, Value.conforms_struct, ← doValues_eq_filterMap, dos_conform]
  | _ :: fc :: object :: rest =>
    simp only [hps] at hrd ht
    rcases ho : ln.object object with _ | o
    · simp [ho] at hrd
    simp only [ho] at hrd
    rw [ho, bind_some] at ht
    simp only [ho]
    exact below_conforms hrd ht

def readConforms (ln : LogicalNode) (item : String) : Option Bool :=
  (resolveRead ln item).bind fun v => (typeSpecFor ln item).map fun t => v.conforms t

lemma exists_of_readConforms {ln : LogicalNode} {item : String} {b : Bool} (h : readConforms ln item = some b) :
    ∃ v t, resolveRead ln item = some v ∧ typeSpecFor ln item = some t ∧ v.conforms t = b := by
  obtain ⟨v, hv, hrs⟩ := bind_eq_some_iff.mp h
  obtain ⟨t, ht, hb⟩ := map_eq_some_iff.mp hrs
  exact ⟨v, t, hv, ht, hb⟩

def quality : DataAttribute :=
  { name := "q", fc := .mx, kind := some .bitString, value := some (.bitString (.new 13)) }

def phase (name : String) (magnitude : DataAttribute) : DataObject :=
  { name := name, attributes := [magnitude, quality] }

def magnitude : DataAttribute :=
  { name := "mag", fc := .mx, kind := some .struct
    children := [{ name := "f", fc := .mx, kind := some .float32, value := some (.float32 0) }] }

def unknownMagnitude : DataAttribute := { name := "mag", fc := .mx, btype := "FLOAT128" }

def currents (a b : DataAttribute) : LogicalNode :=
  { name := "MMXU1", objects := [{ name := "A", objects := [phase "phsA" a, phase "phsB" b] }] }

theorem read_conforms_currents : ∃ v t, resolveRead (currents magnitude magnitude) "MMXU1$MX$A" = some v ∧
      typeSpecFor (currents magnitude magnitude) "MMXU1$MX$A" = some t ∧
      v.conforms t = true ∧ ItemTyped (currents magnitude magnitude) "MMXU1$MX$A" := by
  have hboth : readConforms (currents magnitude magnitude) "MMXU1$MX$A" = some true := by
    decide +kernel
  obtain ⟨v, t, hv, ht, hc⟩ := exists_of_readConforms hboth
  refine ⟨v, t, hv, ht, hc, ?_⟩
  rw [← read_conforms_iff (currents magnitude magnitude) "MMXU1$MX$A" v t hv ht]
  exact hc

/-- A phase that cannot be read is left out of the structure but not out of its type: the second phase stands
where the type declares the first. -/
theorem read_skips_component : ∃ v t, resolveRead (currents unknownMagnitude magnitude) "MMXU1$MX$A" = some v ∧
      typeSpecFor (currents unknownMagnitude magnitude) "MMXU1$MX$A" = some t ∧
      v.conforms t = false ∧ v.children.length = 1 ∧ t.components.map Prod.fst = ["phsA", "phsB"] := by
  have hboth : readConforms (currents unknownMagnitude magnitude) "MMXU1$MX$A" = some false := by
    decide +kernel
  obtain ⟨v, t, hv, ht, hc⟩ := exists_of_readConforms hboth
  have hone : (resolveRead (currents unknownMagnitude magnitude) "MMXU1$MX$A").map
      (fun v => v.children.length) = some 1 := by decide +kernel
  have htwo : (typeSpecFor (currents unknownMagnitude magnitude) "MMXU1$MX$A").map
      (fun t => t.components.map Prod.fst) = some ["phsA", "phsB"] := by decide +kernel
  rw [hv] at hone
  rw [ht] at htwo
  exact ⟨v, t, hv, ht, hc, some.inj hone, some.inj htwo⟩

end Iec61850.Access

namespace Iec61850.Access
open PathTree NameTree Text List

def render (start : String) (path : List String) : String :=
  path.foldl (fun s n => s ++ "$" ++ n) start

def itemOf : List String → String
  | [] => ""
  | x :: path => render x path

mutual
def attrTree (fc : Fc) : DataAttribute → NameTree String
  | ⟨name, _, _, _, _, children, _, _, _⟩ => .node name (attrTrees fc children)

def attrTrees (fc : Fc) : List DataAttribute → List (NameTree String)
  | [] => []
  | a :: as => if a.fc = fc then attrTree fc a :: attrTrees fc as else attrTrees fc as
end

mutual
def objectTree (fc : Fc) : DataObject → NameTree String
  | ⟨name, objects, attributes, _⟩ => .node name (attrTrees fc attributes ++ objectTrees fc objects)

def objectTrees (fc : Fc) : List DataObject → List (NameTree String)
  | [] => []
  | s :: ss => if hasFc s fc then objectTree fc s :: objectTrees fc ss else objectTrees fc ss
end

def constraintTree (ln : LogicalNode) (fc : Fc) : NameTree String :=
  .node (fcNameFor ln fc) (objectTrees fc ln.objects)

def nodeTree (ln : LogicalNode) : NameTree String :=
  .node ln.name ((constraints ln).map (constraintTree ln))

def deviceForest (ld : LogicalDevice) : List (NameTree String) := ld.nodes.map nodeTree

variable {s x : String} {p : List String}

lemma split_render (hp : ∀ n ∈ p, '$' ∉ n.toList) : split '$' (render s p) = split '$' s ++ p := by
  induction p generalizing s with
  | nil => simp [render]
  | cons n p ih =>
    obtain ⟨hn, hrs⟩ := forall_mem_cons.mp hp
    have hstep : render s (n :: p) = render (s ++ "$" ++ n) p := rfl
    rw [hstep, ih hrs, split_append (by decide), split_of_not_mem hn, append_assoc, singleton_append]

lemma split_itemOf (hne : p ≠ []) (hp : ∀ n ∈ p, '$' ∉ n.toList) : split '$' (itemOf p) = p := by
  cases p with
  | nil => exact absurd rfl hne
  | cons x p =>
    obtain ⟨hx, hrs⟩ := forall_mem_cons.mp hp
    rw [itemOf, split_render hrs, split_of_not_mem hx, singleton_append]

lemma itemOf_split (s : String) : itemOf (split '$' s) = s := by
  have hpln : ∀ n ∈ split '$' s, '$' ∉ n.toList := fun n hn => not_mem_of_mem_split hn
  exact split_injective '$' (split_itemOf (split_ne_nil '$' s) hpln)

variable {fc : Fc}

@[simp] lemma label_attrTree (a : DataAttribute) : (attrTree fc a).label = a.name := by
  cases a
  rfl

@[simp] lemma children_attrTree (a : DataAttribute) : (attrTree fc a).children = attrTrees fc a.children := by
  cases a
  rfl

@[simp] lemma label_objectTree (o : DataObject) : (objectTree fc o).label = o.name := by
  cases o
  rfl

@[simp] lemma children_objectTree (o : DataObject) :
    (objectTree fc o).children = attrTrees fc o.attributes ++ objectTrees fc o.objects := by
  cases o
  rfl

lemma attrTrees_eq (as : List DataAttribute) :
    attrTrees fc as = (as.filter fun a => a.fc = fc).map (attrTree fc) := by
  induction as with
  | nil => rfl
  | cons a as ih =>
    rw [attrTrees, filter_cons]
    split <;> simp_all

lemma objectTrees_eq (objects : List DataObject) :
    objectTrees fc objects = (objects.filter fun o => hasFc o fc).map (objectTree fc) := by
  induction objects with
  | nil => rfl
  | cons s ss ih =>
    rw [objectTrees, filter_cons]
    split <;> simp_all

variable {as : List DataAttribute} {t : NameTree String} {objects : List DataObject} {n : String}
  {a : DataAttribute} {o : DataObject}

lemma mem_attrTrees : t ∈ attrTrees fc as ↔ ∃ a ∈ as, a.fc = fc ∧ attrTree fc a = t := by
  simp [attrTrees_eq, and_assoc]

lemma mem_objectTrees : t ∈ objectTrees fc objects ↔ ∃ o ∈ objects, hasFc o fc ∧ objectTree fc o = t := by
  simp [objectTrees_eq, and_assoc]

lemma cons_mem_attrPaths : n :: p ∈ forestPaths (attrTrees fc as) ↔
      ∃ a ∈ as, a.fc = fc ∧ a.name = n ∧ (p = [] ∨ p ∈ forestPaths (attrTrees fc a.children)) := by
  simp [cons_mem_forestPaths, attrTrees_eq, and_assoc]

lemma cons_mem_objectPaths : n :: p ∈ forestPaths (objectTrees fc objects) ↔ ∃ o ∈ objects, hasFc o fc ∧ o.name = n ∧
      (p = [] ∨ p ∈ forestPaths (attrTrees fc o.attributes ++ objectTrees fc o.objects)) := by
  simp [cons_mem_forestPaths, objectTrees_eq, and_assoc]

lemma distinct_children (hd : Distinct (attrTrees fc as)) (ha : a ∈ as)
    (hfc : a.fc = fc) : Distinct (attrTrees fc a.children) := by
  simpa using (distinct_iff.mp hd).2 _ (mem_attrTrees.mpr ⟨a, ha, hfc, rfl⟩)

lemma distinct_parts (hd : Distinct (objectTrees fc objects))
    (ho : o ∈ objects) (hfc : hasFc o fc) : Distinct (attrTrees fc o.attributes ++ objectTrees fc o.objects) := by
  simpa using (distinct_iff.mp hd).2 _ (mem_objectTrees.mpr ⟨o, ho, hfc, rfl⟩)

lemma eq_of_label {α : Type} {l : List α} {p : α → Bool} {tree : α → NameTree String} {a b : α}
    (hd : Distinct ((l.filter p).map tree)) (ha : a ∈ l) (hb : b ∈ l) (hpa : p a) (hpb : p b)
    (h : (tree a).label = (tree b).label) : a = b := by
  have hlab := (distinct_iff.mp hd).1
  rw [map_map] at hlab
  exact inj_on_of_nodup_map hlab (mem_filter.mpr ⟨ha, hpa⟩) (mem_filter.mpr ⟨hb, hpb⟩) h

lemma map_render_paths (start label : String) (ts : List (NameTree String)) :
    (paths (.node label ts)).map (render start) =
      (start ++ "$" ++ label) :: (forestPaths ts).map (render (start ++ "$" ++ label)) := by
  rw [paths, map_cons, map_map]
  rfl

mutual
theorem appendAttrNames_eq : ∀ (a : DataAttribute) (start : String), appendAttrNames fc start a =
      if a.fc = fc then (paths (attrTree fc a)).map (render start) else []
  | ⟨name, fc', _, _, _, children, _, _, _⟩, start => by
    rw [appendAttrNames, attrTree, map_render_paths]
    dsimp only
    rw [appendAllAttrNames_eq children, ite_not]

theorem appendAllAttrNames_eq : ∀ (as : List DataAttribute) (start : String),
    appendAllAttrNames fc start as = (forestPaths (attrTrees fc as)).map (render start)
  | [], _ => rfl
  | a :: as, start => by
    rw [appendAllAttrNames, attrTrees, appendAttrNames_eq a, appendAllAttrNames_eq as]
    split
    · rw [forestPaths, List.map_append]
    · rw [List.nil_append]
end

mutual
theorem appendSubDoNames_eq : ∀ (o : DataObject) (start : String), appendSubDoNames fc start o =
      if hasFc o fc then (paths (objectTree fc o)).map (render start) else []
  | ⟨name, objects, attributes, cdc⟩, start => by
    rw [appendSubDoNames, objectTree, map_render_paths]
    dsimp only
    rw [appendAllAttrNames_eq, appendAllSubDoNames_eq objects, forestPaths_append, List.map_append]

theorem appendAllSubDoNames_eq : ∀ (objects : List DataObject) (start : String),
    appendAllSubDoNames fc start objects = (forestPaths (objectTrees fc objects)).map (render start)
  | [], _ => rfl
  | s :: ss, start => by
    rw [appendAllSubDoNames, objectTrees, appendSubDoNames_eq s, appendAllSubDoNames_eq ss]
    split
    · rw [forestPaths, List.map_append]
    · rw [List.nil_append]
end

lemma namesForNode_eq (ln : LogicalNode) : namesForNode ln = (paths (nodeTree ln)).map itemOf := by
  have hbelow (order : List Fc) :
      (order.flatMap fun fc =>
        (ln.name ++ "$" ++ fcNameFor ln fc) ::
          appendAllSubDoNames fc (ln.name ++ "$" ++ fcNameFor ln fc) ln.objects) =
        (forestPaths (order.map (constraintTree ln))).map (render ln.name) := by
    induction order with
    | nil => rfl
    | cons fc order ih =>
      rw [flatMap_cons, ih, map_cons, forestPaths, map_append, constraintTree,
        map_render_paths, appendAllSubDoNames_eq]
  rw [namesForNode, nodeTree, paths, map_cons, map_map]
  exact congrArg (ln.name :: ·) (hbelow (constraints ln))

lemma namesForDomain_eq (ld : LogicalDevice) : namesForDomain ld = (forestPaths (deviceForest ld)).map itemOf := by
  unfold namesForDomain deviceForest
  induction ld.nodes with
  | nil => rfl
  | cons ln lns ih =>
    rw [flatMap_cons, ih, namesForNode_eq, map_cons, forestPaths, map_append]

open Mms DataObject FirstMatch Option

/-- What a path below a data object leads to. -/
inductive Site where
  | object (o : DataObject)
  | attribute (a : DataAttribute)

def locate (fc : Fc) : List String → DataObject → Option Site
  | [], o => some (.object o)
  | first :: rest, o =>
    match o.child first with
    | some sub => locate fc rest sub
    | none =>
      ((o.attributes.find? fun a => a.name == first && a.fc == fc).bind (·.descend rest)).map .attribute

def locateIn (fc : Fc) (objects : List DataObject) : List String → Option Site
  | [] => none
  | name :: rest => (objects.find? fun o => o.name == name).bind (locate fc rest)

def leafAt (ln : LogicalNode) (item : String) : Option DataAttribute :=
  match splitItem item with
  | none => none
  | some (fc, path) =>
    match locateIn fc ln.objects path with
    | some (.attribute a) => if a.children.isEmpty then some a else none
    | _ => none

def nodeOf (ld : LogicalDevice) (item : String) : Option LogicalNode :=
  match split '$' item with
  | [] => none
  | first :: _ => ld.node first

/-- The constraint is written as the node itself writes it. -/
def Canonical (ln : LogicalNode) (item : String) : Prop :=
  match split '$' item with
  | _ :: fc :: _ => fcNameFor ln (Fc.parseLenient fc) = fc
  | _ => True

/-- What a client that rebuilds the model from the names relies on. -/
structure DirectoryComplete (ld : LogicalDevice) : Prop where
  resolves : ∀ name ∈ namesForDomain ld, ∃ ln, nodeOf ld name = some ln ∧
    (typeSpecFor ln name).isSome = true ∧
    (2 ≤ (split '$' name).length → resolveReadErr ln name ≠ .error .objectNonExistent)
  listed : ∀ item ln a, nodeOf ld item = some ln → Canonical ln item → leafAt ln item = some a →
    item ∈ namesForDomain ld
  nodup : (namesForDomain ld).Nodup

mutual
def Uniform : DataAttribute → Prop
  | ⟨_, fc, _, _, _, children, _, _, _⟩ => AllUniform fc children

def AllUniform (fc : Fc) : List DataAttribute → Prop
  | [] => True
  | c :: cs => c.fc = fc ∧ Uniform c ∧ AllUniform fc cs
end

mutual
def UniformObject : DataObject → Prop
  | ⟨_, objects, attributes, _⟩ => (∀ a ∈ attributes, Uniform a) ∧ UniformObjects objects

def UniformObjects : List DataObject → Prop
  | [] => True
  | s :: ss => UniformObject s ∧ UniformObjects ss
end

/-- The names a device lists hold no dollar sign, and nested attributes inherit their constraint. -/
@[mk_iff]
structure Plain (ld : LogicalDevice) : Prop where
  names : ∀ p ∈ forestPaths (deviceForest ld), ∀ n ∈ p, '$' ∉ n.toList
  uniform : ∀ ln ∈ ld.nodes, UniformObjects ln.objects

mutual
def ObjectExposed (fc : Fc) : DataObject → Prop
  | ⟨_, objects, attributes, _⟩ =>
    (∀ a ∈ attributes, a.fc = fc → ∀ s ∈ objects, s.name ≠ a.name) ∧ ObjectsExposed fc objects objects

def ObjectsExposed (fc : Fc) (siblings : List DataObject) : List DataObject → Prop
  | [] => True
  | s :: ss =>
    (hasFc s fc = true →
      ((siblings.find? fun o => o.name == s.name).any fun first => hasFc first fc) = true ∧
        Produced fc s ∧ ObjectExposed fc s) ∧
      ObjectsExposed fc siblings ss
end

mutual
def decidableUniform : (a : DataAttribute) → Decidable (Uniform a)
  | ⟨_, fc, _, _, _, children, _, _, _⟩ => decidableAllUniform fc children

def decidableAllUniform (fc : Fc) : (as : List DataAttribute) → Decidable (AllUniform fc as)
  | [] => instDecidableTrue
  | c :: cs =>
    have := decidableUniform c
    have := decidableAllUniform fc cs
    inferInstanceAs (Decidable (_ ∧ _ ∧ _))
end

instance (a : DataAttribute) : Decidable (Uniform a) := decidableUniform a

mutual
def decidableUniformObject : (o : DataObject) → Decidable (UniformObject o)
  | ⟨_, objects, _, _⟩ =>
    have := decidableUniformObjects objects
    inferInstanceAs (Decidable (_ ∧ _))

def decidableUniformObjects : (objects : List DataObject) → Decidable (UniformObjects objects)
  | [] => instDecidableTrue
  | s :: ss =>
    have := decidableUniformObject s
    have := decidableUniformObjects ss
    inferInstanceAs (Decidable (_ ∧ _))
end

instance (objects : List DataObject) : Decidable (UniformObjects objects) :=
  decidableUniformObjects objects

mutual
def decidableObjectExposed (fc : Fc) : (o : DataObject) → Decidable (ObjectExposed fc o)
  | ⟨_, objects, _, _⟩ =>
    have := decidableObjectsExposed fc objects objects
    inferInstanceAs (Decidable (_ ∧ _))

def decidableObjectsExposed (fc : Fc) (siblings : List DataObject) : (objects : List DataObject) →
    Decidable (ObjectsExposed fc siblings objects)
  | [] => instDecidableTrue
  | s :: ss =>
    have := decidableObjectExposed fc s
    have := decidableObjectsExposed fc siblings ss
    inferInstanceAs (Decidable (_ ∧ _))
end

instance (fc : Fc) (siblings objects : List DataObject) :
    Decidable (ObjectsExposed fc siblings objects) := decidableObjectsExposed fc siblings objects

/-- Siblings have different names; the spelling of each constraint is read back as the constraint;
and what is listed is found where it is listed. -/
@[mk_iff]
structure Browsable (ld : LogicalDevice) : Prop where
  distinct : Distinct (deviceForest ld)
  spelled : ∀ ln ∈ ld.nodes, ∀ fc ∈ constraints ln, Fc.parseLenient (fcNameFor ln fc) = fc
  exposed : ∀ ln ∈ ld.nodes, ∀ fc ∈ constraints ln, ObjectsExposed fc ln.objects ln.objects

instance (ld : LogicalDevice) : Decidable (Plain ld) := decidable_of_iff' _ (plain_iff ld)

instance (ld : LogicalDevice) : Decidable (Browsable ld) := decidable_of_iff' _ (browsable_iff ld)

mutual
theorem walkText_eq_some : ∀ (o : DataObject) (t : String), o.walkText fc = some t → ∃ raw, t = fc.text raw
  | ⟨_, objects, attributes, _⟩, t => by
    intro h
    rw [walkText] at h
    split at h
    next a ha =>
      have hfc : a.fc = fc := by simpa using find?_some ha
      exact ⟨a.fcName, by rw [← some.inj h, hfc]⟩
    · exact walkTextAll_eq_some objects t h

theorem walkTextAll_eq_some : ∀ (objects : List DataObject) (t : String),
    walkTextAll fc objects = some t → ∃ raw, t = fc.text raw
  | [], _ => fun h => by cases h
  | s :: ss, t => by
    intro h
    rw [walkTextAll] at h
    split at h
    next u hu =>
      cases h
      exact walkText_eq_some s t hu
    · exact walkTextAll_eq_some ss t h
end

lemma text_of_known (h : fc ≠ .unknown) (raw : String) : fc.text raw = fc.asStr := if_pos h

lemma fcNameFor_eq_text (ln : LogicalNode) (fc : Fc) : ∃ raw, fcNameFor ln fc = fc.text raw := by
  have hdefault : ∃ raw, fc.asStr = fc.text raw := by
    refine ⟨"", ?_⟩
    cases fc <;> decide
  unfold fcNameFor
  split
  next o _ =>
    unfold fcText
    cases ht : o.walkText fc with
    | none => exact hdefault
    | some t => exact walkText_eq_some o t ht
  · exact hdefault

lemma parseLenient_text (fc : Fc) (raw : String) : Fc.parseLenient (fc.text raw) = fc ∨
      (Fc.parseLenient (fc.text raw) ≠ .unknown ∧ (Fc.parseLenient (fc.text raw)).asStr = fc.text raw) := by
  by_cases hfc : fc = .unknown
  · subst hfc
    unfold Fc.text
    simp only [ne_eq, not_true_eq_false, if_false]
    split
    · exact .inl (by decide)
    next hne =>
    generalize hu : toAsciiUppercase (trim raw) = u at hne ⊢
    have htrim : trim u = u := by
      rw [← hu, trim_toAsciiUppercase, trim_trim]
    have hupper : toAsciiUppercase u = u := by rw [← hu, toAsciiUppercase_idem]
    unfold Fc.parseLenient Fc.parse
    simp only [htrim, hupper, hne, if_false]
    split
    · next hall => exact .inr ⟨by decide, hall.symm⟩
    cases hfind : Fc.allValues.find? fun fc => fc.asStr == u with
    | none => exact .inl rfl
    | some g =>
      have hknown : ∀ g ∈ Fc.allValues, g ≠ .unknown := by decide
      have hg : g.asStr = u := by simpa using find?_some hfind
      exact .inr ⟨hknown g (mem_of_find?_eq_some hfind), hg⟩
  · rw [text_of_known hfc]
    left
    cases fc <;> decide

lemma spelled_or_shared (ln : LogicalNode) (fc : Fc) : Fc.parseLenient (fcNameFor ln fc) = fc ∨
      fcNameFor ln (Fc.parseLenient (fcNameFor ln fc)) = fcNameFor ln fc := by
  obtain ⟨raw, hraw⟩ := fcNameFor_eq_text ln fc
  rcases parseLenient_text fc raw with h | ⟨hknown, hstr⟩
  · exact .inl (by rw [hraw, h])
  right
  rw [hraw]
  obtain ⟨raw', hraw'⟩ := fcNameFor_eq_text ln (Fc.parseLenient (fc.text raw))
  rw [hraw', text_of_known hknown, hstr]

lemma allUniform_iff : AllUniform fc as ↔ ∀ c ∈ as, c.fc = fc ∧ Uniform c := by
  induction as with
  | nil => simp [AllUniform]
  | cons c cs ih => simp [AllUniform, ih, and_assoc]

lemma Uniform.children (h : Uniform a) : ∀ c ∈ a.children, c.fc = a.fc ∧ Uniform c := by
  cases a
  exact allUniform_iff.mp h

lemma uniformObjects_iff : UniformObjects objects ↔ ∀ s ∈ objects, UniformObject s := by
  induction objects with
  | nil => simp [UniformObjects]
  | cons s ss ih => simp [UniformObjects, ih]

lemma UniformObject.parts (h : UniformObject o) : (∀ a ∈ o.attributes, Uniform a) ∧ UniformObjects o.objects := by
  cases o
  exact h

variable {a b : DataAttribute}

lemma eq_of_name (hd : Distinct (attrTrees fc as))
    (ha : a ∈ as) (hb : b ∈ as) (hfa : a.fc = fc) (hfb : b.fc = fc) (hnm : a.name = b.name) : a = b := by
  rw [attrTrees_eq] at hd
  exact eq_of_label hd ha hb (by simpa using hfa) (by simpa using hfb) (by simpa using hnm)

lemma isSome_descend (hu : Uniform a) (hfc : a.fc = fc) (hd : Distinct (attrTrees fc a.children))
    (hp : p = [] ∨ p ∈ forestPaths (attrTrees fc a.children)) : (a.descend p).isSome := by
  induction p generalizing a with
  | nil => rfl
  | cons n p ih =>
    obtain ⟨c, hc, hcfc, hnm, hrs⟩ := cons_mem_attrPaths.mp (hp.resolve_left (cons_ne_nil n p))
    -- The lookup takes the first child of the name, which is the listed one.
    obtain ⟨b, hb, hbname, hfnd : a.child n = some b⟩ := find_named DataAttribute.name hc hnm
    have hbfc : b.fc = fc := by rw [(hu.children b hb).1, hfc]
    obtain rfl := eq_of_name hd hb hc hbfc hcfc (by rw [hbname, hnm])
    rw [DataAttribute.descend, hfnd, bind_some]
    exact ih (hu.children b hb).2 hbfc (distinct_children hd hb hbfc) hrs

lemma mem_of_descend (hu : Uniform a) (hfc : a.fc = fc)
    (h : a.descend p = some b) : p = [] ∨ p ∈ forestPaths (attrTrees fc a.children) := by
  induction p generalizing a with
  | nil => exact .inl rfl
  | cons n p ih =>
    right
    obtain ⟨c, hc, hrs⟩ := bind_eq_some_iff.mp h
    obtain ⟨hm, hnm⟩ := named_of_find hc
    have hcfc : c.fc = fc := by rw [(hu.children c hm).1, hfc]
    exact cons_mem_attrPaths.mpr ⟨c, hm, hcfc, hnm, ih (hu.children c hm).2 hcfc hrs⟩

variable {o : DataObject}

def Readable (fc : Fc) : Option Site → Prop
  | some (.object o) => Produced fc o
  | some (.attribute _) => True
  | none => False

lemma readBelow_ne : readBelow fc p o ≠ .error .objectNonExistent ↔ Readable fc (locate fc p o) := by
  induction p generalizing o with
  | nil =>
    rw [readBelow, locate, Readable, ← isSome_doValue]
    cases doValue fc o <;> simp
  | cons first rest ih =>
    rw [readBelow, locate]
    cases o.child first with
    | some sub => exact ih
    | none =>
      cases (o.attributes.find? fun a => a.name == first && a.fc == fc).bind (·.descend rest) with
      | none => simp [Readable]
      | some a =>
        dsimp only
        split <;> simp [Readable]

lemma isSome_typeBelow : (typeBelow fc p o).isSome = (locate fc p o).isSome := by
  induction p generalizing o with
  | nil => rfl
  | cons first rest ih =>
    rw [typeBelow, locate]
    cases o.child first with
    | some sub => exact ih
    | none => simp only [isSome_map]

lemma Readable.isSome {site : Option Site} (h : Readable fc site) : site.isSome := by
  cases site with
  | none => exact h.elim
  | some _ => rfl

lemma locate_of_child {s : DataObject} (h : s ∈ o.objects) (hn : s.name = n) :
    locate fc (n :: p) o = locateIn fc o.objects (n :: p) := by
  obtain ⟨sub, -, -, hfind⟩ := find_named DataObject.name h hn
  have hch : o.child n = some sub := hfind
  rw [locate, locateIn, hch, hfind]
  rfl

lemma objectsExposed_iff {siblings : List DataObject} : ObjectsExposed fc siblings objects ↔
    ∀ s ∈ objects, hasFc s fc → ((siblings.find? fun o => o.name == s.name).any fun first => hasFc first fc) ∧
        Produced fc s ∧ ObjectExposed fc s := by
  induction objects with
  | nil => simp [ObjectsExposed]
  | cons s ss ih => rw [ObjectsExposed, ih, forall_mem_cons]

lemma objectExposed_iff : ObjectExposed fc o ↔ (∀ a ∈ o.attributes, a.fc = fc → ∀ s ∈ o.objects, s.name ≠ a.name) ∧
      ObjectsExposed fc o.objects o.objects := by
  cases o
  rw [ObjectExposed]

lemma eq_of_objectName {o' : DataObject} (hd : Distinct (objectTrees fc objects))
    (ho : o ∈ objects) (ho' : o' ∈ objects) (hf : hasFc o fc) (hf' : hasFc o' fc)
    (hnm : o.name = o'.name) : o = o' := by
  rw [objectTrees_eq] at hd
  exact eq_of_label hd ho ho' hf hf' (by simpa using hnm)

lemma distinct_below (hd : Distinct (attrTrees fc o.attributes ++ objectTrees fc o.objects)) :
    Distinct (attrTrees fc o.attributes) ∧ Distinct (objectTrees fc o.objects) ∧
      ∀ a ∈ o.attributes, a.fc = fc → ∀ s ∈ o.objects, hasFc s fc → s.name ≠ a.name := by
  obtain ⟨hlab, hbelow⟩ := distinct_iff.mp hd
  rw [map_append, nodup_append] at hlab
  obtain ⟨hattrs, hobjects, hapart⟩ := hlab
  refine ⟨distinct_iff.mpr ⟨hattrs, fun t ht => hbelow t (by simp [ht])⟩,
    distinct_iff.mpr ⟨hobjects, fun t ht => hbelow t (by simp [ht])⟩, ?_⟩
  intro a ha hfa s hs hfs hnm
  have hla := mem_map.mpr ⟨_, mem_attrTrees.mpr ⟨a, ha, hfa, rfl⟩, label_attrTree a⟩
  have hls := mem_map.mpr ⟨_, mem_objectTrees.mpr ⟨s, hs, hfs, rfl⟩, label_objectTree s⟩
  exact hapart a.name hla s.name hls hnm.symm

lemma readable_attribute {rest : List String}
    (hd : Distinct (attrTrees fc o.attributes)) (hu : ∀ a ∈ o.attributes, Uniform a)
    (ha : a ∈ o.attributes) (hfc : a.fc = fc) (hfree : ∀ s ∈ o.objects, s.name ≠ a.name)
    (hrs : rest = [] ∨ rest ∈ forestPaths (attrTrees fc a.children)) :
    Readable fc (locate fc (a.name :: rest) o) := by
  have hch : o.child a.name = none := by
    apply find?_eq_none.mpr
    intro s hs
    simpa using hfree s hs
  have hfnd : (o.attributes.find? fun b => b.name == a.name && b.fc == fc) = some a := by
    cases hf : o.attributes.find? fun b => b.name == a.name && b.fc == fc with
    | none =>
      have hno := find?_eq_none.mp hf a ha
      simp [hfc] at hno
    | some b =>
      have hb := find?_some hf
      simp only [Bool.and_eq_true, beq_iff_eq] at hb
      rw [eq_of_name hd (mem_of_find?_eq_some hf) ha hb.2 hfc hb.1]
  have hbelow := isSome_descend (hu a ha) hfc (distinct_children hd ha hfc) hrs
  obtain ⟨b, hb⟩ := isSome_iff_exists.mp hbelow
  rw [locate, hch]
  simp [hfnd, hb, Readable]

lemma readable_of_exposed (hu : UniformObjects objects) (hd : Distinct (objectTrees fc objects))
    (hx : ObjectsExposed fc objects objects) (hp : p ∈ forestPaths (objectTrees fc objects)) :
    Readable fc (locateIn fc objects p) := by
  induction p generalizing objects with
  | nil => exact absurd rfl (ne_nil_of_mem_forestPaths hp)
  | cons n p ih =>
    obtain ⟨o, ho, hfc, hlabel, hrs⟩ := cons_mem_objectPaths.mp hp
    obtain ⟨hany, hprod, hexp⟩ := objectsExposed_iff.mp hx o ho hfc
    obtain ⟨first, hfst, hffc⟩ := (any_eq_true _ _).mp hany
    obtain ⟨hm, hnm⟩ := named_of_find hfst
    rw [hlabel, eq_of_objectName hd hm ho hffc hfc hnm] at hfst
    have hloc : locateIn fc objects (n :: p) = locate fc p o := by
      rw [locateIn, hfst, bind_some]
    rw [hloc]
    obtain ⟨hda, hdo, -⟩ := distinct_below (distinct_parts hd ho hfc)
    obtain ⟨hfree, hsub⟩ := objectExposed_iff.mp hexp
    obtain ⟨hua, huo⟩ := (uniformObjects_iff.mp hu o ho).parts
    cases p with
    | nil => exact hprod
    | cons m q =>
      have hm := hrs.resolve_left (cons_ne_nil m q)
      rw [forestPaths_append, mem_append] at hm
      rcases hm with hat | hobj
      · obtain ⟨a, ha, hafc, rfl, hq⟩ := cons_mem_attrPaths.mp hat
        exact readable_attribute hda hua ha hafc (hfree a ha hafc) hq
      obtain ⟨s, hs, -, hnm, -⟩ := cons_mem_objectPaths.mp hobj
      rw [locate_of_child hs hnm]
      exact ih huo hdo hsub hobj

lemma hasFc_of_produced (h : Produced fc o) : hasFc o fc := hasFc_iff.mpr h.carries

mutual
theorem exposed_of_readable : ∀ o : DataObject, Distinct (attrTrees fc o.attributes ++ objectTrees fc o.objects) →
    (∀ p ∈ forestPaths (attrTrees fc o.attributes ++ objectTrees fc o.objects),
      Readable fc (locate fc p o)) → ObjectExposed fc o
  | ⟨name, objects, attributes, cdc⟩ => by
    intro hd hr
    obtain ⟨-, hdo, hapart⟩ := distinct_below hd
    constructor
    · intro a ha hafc s hs hnm
      -- A sub-object of the attribute's name answers in its place, so it must be listed too.
      have hlstd : [a.name] ∈ forestPaths (attrTrees fc attributes ++ objectTrees fc objects) := by
        rw [forestPaths_append]
        exact mem_append_left _ (cons_mem_attrPaths.mpr ⟨a, ha, hafc, rfl, .inl rfl⟩)
      have hrd := hr _ hlstd
      obtain ⟨sub, hsub, hsubname, hf⟩ := find_named DataObject.name hs hnm
      rw [locate_of_child hs hnm, locateIn] at hrd
      simp only [hf, bind_some, locate] at hrd
      exact hapart a ha hafc sub hsub (hasFc_of_produced hrd) hsubname
    apply allExposed_of_readable objects objects (fun s hs => hs) hdo
    intro p hp
    have hm : p ∈ forestPaths (attrTrees fc attributes ++ objectTrees fc objects) := by
      rw [forestPaths_append]
      exact mem_append_right _ hp
    have hrd := hr p hm
    cases p with
    | nil => exact absurd rfl (ne_nil_of_mem_forestPaths hp)
    | cons n q =>
      obtain ⟨s, hs, -, hnm, -⟩ := cons_mem_objectPaths.mp hp
      rwa [locate_of_child hs hnm] at hrd

theorem allExposed_of_readable : ∀ objects siblings : List DataObject,
    (∀ s ∈ objects, s ∈ siblings) → Distinct (objectTrees fc siblings) →
    (∀ p ∈ forestPaths (objectTrees fc siblings), Readable fc (locateIn fc siblings p)) →
    ObjectsExposed fc siblings objects
  | [], _ => fun _ _ _ => trivial
  | s :: ss, siblings => by
    intro hsub hd hr
    refine ⟨?_, allExposed_of_readable ss siblings (fun s hs => hsub s (List.mem_cons_of_mem _ hs)) hd hr⟩
    intro hfc
    have hs : s ∈ siblings := hsub s mem_cons_self
    have hlstd {p : List String} (hp : p = [] ∨ p ∈ forestPaths (attrTrees fc s.attributes ++ objectTrees fc s.objects)) :
        Readable fc (locateIn fc siblings (s.name :: p)) :=
      hr _ (cons_mem_objectPaths.mpr ⟨s, hs, hfc, rfl, hp⟩)
    obtain ⟨first, hfst, hnm, hf⟩ := find_named DataObject.name hs rfl
    simp only [locateIn, hf, bind_some] at hlstd
    have hrd : Produced fc first := hlstd (.inl rfl)
    have hffc := hasFc_of_produced hrd
    obtain rfl := eq_of_objectName hd hfst hs hffc hfc hnm
    rw [hf]
    exact ⟨hffc, hrd, exposed_of_readable first (distinct_parts hd hs hfc) fun p hp => hlstd (.inr hp)⟩
end

lemma mem_of_locate (hu : UniformObject o) (h : locate fc p o = some (.attribute a)) :
    o.Carries fc ∧ p ∈ forestPaths (attrTrees fc o.attributes ++ objectTrees fc o.objects) := by
  induction p generalizing o with
  | nil => cases h
  | cons n p ih =>
    rw [locate] at h
    rw [forestPaths_append, mem_append, carries_iff]
    cases hc : o.child n with
    | some sub =>
      rw [hc] at h
      obtain ⟨hsub, hnm⟩ := named_of_find hc
      obtain ⟨hcar, hm⟩ := ih (uniformObjects_iff.mp hu.parts.2 sub hsub) h
      exact ⟨.inr ⟨sub, hsub, hcar⟩,
        .inr (cons_mem_objectPaths.mpr ⟨sub, hsub, hasFc_iff.mpr hcar, hnm, .inr hm⟩)⟩
    | none =>
      rw [hc] at h
      obtain ⟨b, hb, -⟩ := map_eq_some_iff.mp h
      obtain ⟨top, htop, hdesc⟩ := bind_eq_some_iff.mp hb
      have hm : top ∈ o.attributes := mem_of_find?_eq_some htop
      have hprop := find?_some htop
      simp only [Bool.and_eq_true, beq_iff_eq] at hprop
      have hrs := mem_of_descend (hu.parts.1 top hm) hprop.2 hdesc
      exact ⟨.inl ⟨top, hm, hprop.2⟩, .inl (cons_mem_attrPaths.mpr ⟨top, hm, hprop.2, hprop.1, hrs⟩)⟩

variable {ld : LogicalDevice} {ln : LogicalNode}

lemma node_of_distinct (hd : Distinct (deviceForest ld)) (h : ln ∈ ld.nodes) : ld.node ln.name = some ln := by
  have hnd : (ld.nodes.map LogicalNode.name).Nodup := by
    have hlab := (distinct_iff.mp hd).1
    rw [deviceForest, List.map_map] at hlab
    exact hlab
  exact FirstMatch.find_of_nodup hnd h

lemma mem_names_of_path (hp : p ∈ forestPaths (deviceForest ld)) : itemOf p ∈ namesForDomain ld := by
  rw [namesForDomain_eq]
  exact mem_map_of_mem hp

lemma mem_devicePaths : p ∈ forestPaths (deviceForest ld) ↔
    ∃ ln ∈ ld.nodes, p = [ln.name] ∨ ∃ fc ∈ constraints ln, ∃ r, p = ln.name :: fcNameFor ln fc :: r ∧
      (r = [] ∨ r ∈ forestPaths (objectTrees fc ln.objects)) := by
  constructor
  · intro h
    obtain ⟨t, ht, hp⟩ := mem_forestPaths.mp h
    obtain ⟨ln, hln, rfl⟩ := mem_map.mp ht
    obtain ⟨q, rfl, hq⟩ := mem_paths.mp hp
    refine ⟨ln, hln, hq.imp (fun h => by rw [h]; rfl) fun hq => ?_⟩
    obtain ⟨u, hu, hpu⟩ := mem_forestPaths.mp hq
    obtain ⟨fc, hfc, rfl⟩ := mem_map.mp hu
    obtain ⟨r, rfl, hr⟩ := mem_paths.mp hpu
    exact ⟨fc, hfc, r, rfl, hr⟩
  rintro ⟨ln, hln, h⟩
  have ht : nodeTree ln ∈ deviceForest ld := mem_map_of_mem hln
  rcases h with rfl | ⟨fc, hfc, r, rfl, hr⟩
  · exact cons_mem_forestPaths.mpr ⟨_, ht, rfl, .inl rfl⟩
  · refine cons_mem_forestPaths.mpr ⟨_, ht, rfl, .inr ?_⟩
    exact cons_mem_forestPaths.mpr ⟨constraintTree ln fc, mem_map_of_mem hfc, rfl, hr⟩

lemma distinct_objects (hd : Distinct (deviceForest ld)) (hln : ln ∈ ld.nodes)
    (hfc : fc ∈ constraints ln) : Distinct (objectTrees fc ln.objects) := by
  have hnd := (distinct_iff.mp hd).2 (nodeTree ln) (mem_map_of_mem hln)
  exact (distinct_iff.mp hnd).2 (constraintTree ln fc) (mem_map_of_mem hfc)

variable {r : List String}

lemma item_resolves {item f : String}
    (hitem : split '$' item = ln.name :: f :: n :: r) (hf : Fc.parseLenient f = fc) :
    (resolveReadErr ln item ≠ .error .objectNonExistent ↔ Readable fc (locateIn fc ln.objects (n :: r))) ∧
      (typeSpecFor ln item).isSome = (locateIn fc ln.objects (n :: r)).isSome := by
  have hobj : ln.objects.find? (fun o => o.name == n) = ln.object n := rfl
  unfold resolveReadErr splitItem typeSpecFor
  simp only [hitem, hf, locateIn, hobj]
  cases ln.object n with
  | none => simp [Readable]
  | some o => exact ⟨readBelow_ne, isSome_typeBelow⟩

lemma complete_of_browsable (hpln : Plain ld) (h : Browsable ld) : DirectoryComplete ld where
  resolves := by
    intro name hnm
    rw [namesForDomain_eq] at hnm
    obtain ⟨p, hp, rfl⟩ := mem_map.mp hnm
    have hsp := split_itemOf (ne_nil_of_mem_forestPaths hp) (hpln.names p hp)
    obtain ⟨ln, hln, hcs⟩ := mem_devicePaths.mp hp
    refine ⟨ln, ?_, ?_⟩
    · rw [nodeOf, hsp]
      rcases hcs with rfl | ⟨fc, -, r, rfl, -⟩ <;> exact node_of_distinct h.distinct hln
    rcases hcs with rfl | ⟨fc, hfc, r, rfl, hr⟩
    · simp [typeSpecFor, hsp]
    have hspelled := h.spelled ln hln fc hfc
    cases r with
    | nil => simp [typeSpecFor, resolveReadErr, splitItem, hsp]
    | cons n r =>
      obtain ⟨hrd, htype⟩ := item_resolves hsp hspelled
      have hsite := readable_of_exposed (hpln.uniform ln hln)
        (distinct_objects h.distinct hln hfc) (h.exposed ln hln fc hfc)
        (hr.resolve_left (cons_ne_nil n r))
      exact ⟨by rw [htype, hsite.isSome], fun _ => hrd.mpr hsite⟩
  listed := by
    intro item ln a hnd hcanon hleaf
    have hln : ln ∈ ld.nodes ∧ ∃ f n r, split '$' item = ln.name :: f :: n :: r ∧
        locateIn (Fc.parseLenient f) ln.objects (n :: r) = some (.attribute a) := by
      unfold nodeOf at hnd
      unfold leafAt splitItem at hleaf
      match hps : split '$' item with
      | [] => simp [hps] at hnd
      | [_] => simp [hps] at hleaf
      | [_, _] => simp [hps, locateIn] at hleaf
      | x :: f :: n :: r =>
        simp only [hps] at hnd hleaf
        obtain ⟨hm, hx⟩ := named_of_find hnd
        refine ⟨hm, f, n, r, by rw [hx], ?_⟩
        split at hleaf
        next b hb =>
          split at hleaf
          · rw [hb, some.inj hleaf]
          · cases hleaf
        · cases hleaf
    obtain ⟨hln, f, n, r, hsp, hloc⟩ := hln
    have hnm : fcNameFor ln (Fc.parseLenient f) = f := by
      simpa [Canonical, hsp] using hcanon
    obtain ⟨o, ho, hbelow⟩ := bind_eq_some_iff.mp hloc
    obtain ⟨hm, honame⟩ := named_of_find ho
    have huo := uniformObjects_iff.mp (hpln.uniform ln hln) o hm
    obtain ⟨hcar, hpath⟩ := mem_of_locate huo hbelow
    have hfc := hasFc_iff.mpr hcar
    have hr := cons_mem_objectPaths.mpr ⟨o, hm, hfc, honame, .inr hpath⟩
    have hdevice := mem_devicePaths.mpr ⟨ln, hln, .inr ⟨Fc.parseLenient f, mem_constraints.mpr ⟨o, hm, hfc⟩,
        n :: r, by rw [hnm], .inr hr⟩⟩
    rw [← itemOf_split item, hsp]
    exact mem_names_of_path hdevice
  nodup := by
    rw [namesForDomain_eq]
    apply List.Nodup.map_on _ ((nodup_forestPaths _).mpr h.distinct)
    intro p hp q hq heq
    have hsp := congrArg (split '$') heq
    rwa [split_itemOf (ne_nil_of_mem_forestPaths hp) (hpln.names p hp),
      split_itemOf (ne_nil_of_mem_forestPaths hq) (hpln.names q hq)] at hsp

lemma distinct_of_complete (h : DirectoryComplete ld) : Distinct (deviceForest ld) := by
  have hnd := h.nodup
  rw [namesForDomain_eq] at hnd
  exact (nodup_forestPaths _).mp (List.Nodup.of_map itemOf hnd)

lemma readable_of_complete (hpln : Plain ld) (h : DirectoryComplete ld) (hln : ln ∈ ld.nodes)
    (hfc : fc ∈ constraints ln) (hr : r ∈ forestPaths (objectTrees fc ln.objects)) :
    Readable (Fc.parseLenient (fcNameFor ln fc)) (locateIn (Fc.parseLenient (fcNameFor ln fc)) ln.objects r) := by
  have hp := mem_devicePaths.mpr ⟨ln, hln, .inr ⟨fc, hfc, r, rfl, .inr hr⟩⟩
  have hsp := split_itemOf (cons_ne_nil _ _) (hpln.names _ hp)
  obtain ⟨ln', hnd, -, hrd⟩ := h.resolves _ (mem_names_of_path hp)
  rw [nodeOf, hsp] at hnd
  have hsm : ln = ln' := some.inj ((node_of_distinct (distinct_of_complete h) hln).symm.trans hnd)
  subst hsm
  cases r with
  | nil => exact absurd rfl (ne_nil_of_mem_forestPaths hr)
  | cons n r =>
    rw [hsp] at hrd
    exact (item_resolves hsp rfl).1.mp (hrd (by simp))

lemma browsable_of_complete (hpln : Plain ld) (h : DirectoryComplete ld) : Browsable ld := by
  have hd := distinct_of_complete h
  have hspelled : ∀ ln ∈ ld.nodes, ∀ fc ∈ constraints ln,
      Fc.parseLenient (fcNameFor ln fc) = fc := by
    intro ln hln fc hfc
    rcases spelled_or_shared ln fc with hs | hshared
    · exact hs
    -- An object listed under the one constraint is read under the other, so both are listed, and
    -- under the same spelling.
    · obtain ⟨o, ho, hofc⟩ := mem_constraints.mp hfc
      have hr := cons_mem_objectPaths.mpr ⟨o, ho, hofc, rfl, .inl rfl⟩
      have hrd := readable_of_complete hpln h hln hfc hr
      obtain ⟨first, hfst, -, hfind⟩ := find_named DataObject.name ho rfl
      rw [locateIn, hfind, Option.bind_some, locate] at hrd
      have hg := mem_constraints.mpr ⟨first, hfst, hasFc_of_produced hrd⟩
      have hnode := (distinct_iff.mp hd).2 (nodeTree ln) (List.mem_map_of_mem hln)
      have hlab : ((constraints ln).map (fcNameFor ln)).Nodup := by
        have hnd := (distinct_iff.mp hnode).1
        rw [nodeTree, children, List.map_map] at hnd
        exact hnd
      exact List.inj_on_of_nodup_map hlab hg hfc hshared
  refine ⟨hd, hspelled, ?_⟩
  intro ln hln fc hfc
  apply allExposed_of_readable ln.objects ln.objects (fun s hs => hs) (distinct_objects hd hln hfc)
  intro r hr
  have hrd := readable_of_complete hpln h hln hfc hr
  rw [hspelled ln hln fc hfc] at hrd
  exact hrd

/-- The directory of a device is complete exactly when siblings have different names, the spelling of a
constraint is read back, every listed object has a value, and no object hides another one or an attribute. -/
theorem directory_complete_iff (ld : LogicalDevice) (hplain : Plain ld) : DirectoryComplete ld ↔ Browsable ld :=
  ⟨browsable_of_complete hplain, complete_of_browsable hplain⟩

def stationModel (goose log : String) : Model :=
  let mode : DataObject :=
    { name := "Mod", attributes := [Server.cbAttr .st "stVal" (.integer 1)] }
  let lln0 : LogicalNode :=
    { name := "LLN0", objects := [mode], gseControls := [{ name := goose }]
      logControls := [{ name := log, logName := "EventLog" }] }
  { devices := [{ name := "LD0", nodes := [lln0] }] }

def servedDevice (goose log : String) : LogicalDevice :=
  (Server.servedModel {} (stationModel goose log)).devices.headD { name := "" }

theorem directory_complete_blocks :
    Plain (servedDevice "gcb01" "lcb01") ∧ DirectoryComplete (servedDevice "gcb01" "lcb01") := by
  have hpln : Plain (servedDevice "gcb01" "lcb01") := by decide +kernel
  refine ⟨hpln, ?_⟩
  rw [directory_complete_iff _ hpln]
  decide +kernel

def readError (ld : LogicalDevice) (item : String) : Option DataAccessError :=
  (nodeOf ld item).bind fun ln =>
    match resolveReadErr ln item with
    | .error e => some e
    | .ok _ => none

/-- A GOOSE and a log control block of one name: the log block is listed, but its name leads to the
GOOSE block, which has nothing under LG. -/
theorem listed_not_readable : "LLN0$LG$cb01" ∈ namesForDomain (servedDevice "cb01" "cb01") ∧
      readError (servedDevice "cb01" "cb01") "LLN0$LG$cb01" = some .objectNonExistent ∧
      ¬ DirectoryComplete (servedDevice "cb01" "cb01") := by
  have hlstd : "LLN0$LG$cb01" ∈ namesForDomain (servedDevice "cb01" "cb01") := by decide +kernel
  have herror : readError (servedDevice "cb01" "cb01") "LLN0$LG$cb01" = some .objectNonExistent := by decide +kernel
  refine ⟨hlstd, herror, ?_⟩
  intro h
  obtain ⟨ln, hnd, -, hrd⟩ := h.resolves _ hlstd
  have hlong : 2 ≤ (split '$' "LLN0$LG$cb01").length := by decide
  have hnot := hrd hlong
  rw [readError, hnd, bind_some] at herror
  split at herror
  next e he =>
    rw [some.inj herror] at he
    exact hnot he
  · cases herror

end Iec61850.Access
