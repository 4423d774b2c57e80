import Iec61850.ModelNodes
import Mathlib.Data.List.Sort

/-! How the server maps an MMS item onto the object model, what a change of one data object does to what the others
show, and what a client can browse. -/
namespace Iec61850.Access
open Mms

def splitItem (item : String) : Option (Fc × List String) :=
  match Text.split '$' item with
  | _ :: fc :: rest => some (Fc.parseLenient fc, rest)
  | _ => none

mutual
/-- The value of an attribute: its own, a structure of its children, or an array of that. `none` for one of an
unknown basic type that holds nothing. -/
def daValueOpt : DataAttribute → Option Value
  | ⟨_, _, kind, _, count, children, value, _, _⟩ =>
    if children.isEmpty then
      match value with
      | some v => some v
      | none => if kind = none ∨ kind = some .none then none else some (.boolean false)
    else
      (daValues children).map fun members =>
        if kind = some .array then .array (List.replicate count (.struct members))
        else .struct members

def daValues : List DataAttribute → Option (List Value)
  | [] => some []
  | c :: cs => (daValueOpt c).bind fun v => (daValues cs).map fun vs => v :: vs
end

mutual
def doValue (fc : Fc) : DataObject → Option Value
  | ⟨_, objects, attributes, _⟩ =>
    (daValues (attributes.filter fun a => a.fc == fc)).bind fun own =>
      let members := own ++ doValues fc objects
      if members.isEmpty then none else some (.struct members)

def doValues (fc : Fc) : List DataObject → List Value
  | [] => []
  | s :: ss =>
    match doValue fc s with
    | some v => if v.children.isEmpty then doValues fc ss else v :: doValues fc ss
    | none => doValues fc ss
end

/-- The value at a path below a data object: down sub-objects while they match, then attributes of the
constraint. -/
def readBelow (fc : Fc) : List String → DataObject → Except DataAccessError Value
  | [], o =>
    match doValue fc o with
    | some v => .ok v
    | none => .error .objectNonExistent
  | first :: rest, o =>
    match o.child first with
    | some sub => readBelow fc rest sub
    | none =>
      match (o.attributes.find? fun a => a.name == first && a.fc == fc).bind (·.descend rest) with
      | none => .error .objectNonExistent
      | some da =>
        -- An attribute that is there but holds nothing it could encode.
        match daValueOpt da with
        | some v => .ok v
        | none => .error .typeInconsistent

def resolveReadErr (ln : LogicalNode) (item : String) : Except DataAccessError Value :=
  match splitItem item with
  | none => .error .objectNonExistent
  | some (fc, []) => .ok (.struct (ln.objects.filterMap (doValue fc)))
  | some (fc, object :: rest) =>
    match ln.object object with
    | none => .error .objectNonExistent
    | some o => readBelow fc rest o

def resolveRead (ln : LogicalNode) (item : String) : Option Value :=
  (resolveReadErr ln item).toOption

def writeBelow (fc : Fc) : List String → DataObject → Option DataAttribute
  | [], _ => none
  | [name], o => o.attributes.find? fun a => a.name == name && a.fc == fc
  | first :: rest, o =>
    match o.child first with
    | some sub => writeBelow fc rest sub
    | none => (o.attributes.find? fun a => a.name == first && a.fc == fc).bind (·.descend rest)

def writeBelowMut (fc : Fc) (f : DataAttribute → DataAttribute) : List String → DataObject → DataObject
  | [], o => o
  | [name], o =>
    { o with attributes := FirstMatch.update (fun a => a.name == name && a.fc == fc) f o.attributes }
  | first :: rest, o =>
    match o.child first with
    | some _ =>
      let objects := FirstMatch.update (fun s => s.name == first) (writeBelowMut fc f rest) o.objects
      { o with objects := objects }
    | none =>
      let attributes := FirstMatch.update (fun a => a.name == first && a.fc == fc)
        (DataAttribute.descendMut f rest) o.attributes
      { o with attributes := attributes }

def writePath (item : String) : Option (String × Fc × List String) :=
  match Text.split '$' item with
  | _ :: fc :: object :: first :: rest => some (object, Fc.parseLenient fc, first :: rest)
  | _ => none

def resolveWrite (ln : LogicalNode) (item : String) : Option DataAttribute :=
  (writePath item).bind fun (object, fc, path) =>
    (ln.object object).bind fun o =>
      (writeBelow fc path o).filter fun da => da.children.isEmpty

end Iec61850.Access

namespace Iec61850

lemma triple_inj {α β γ : Type} {a a' : α} {b b' : β} {c c' : γ} (h : (a, b, c) = (a', b', c')) :
    a = a' ∧ b = b' ∧ c = c' := by
  simpa using h

namespace Model
open FirstMatch

variable {f : LogicalNode → LogicalNode}

lemma device_nodeMut_same (m : Model) (d l : String) : (m.nodeMut d l f).device d = (m.device d).map fun ld =>
    { ld with nodes := update (fun n => n.name == l) f ld.nodes } := by
  apply find_update_same
  intro ld h
  exact h

lemma node_nodeMut_same (m : Model) (d l : String)
    (hf : ∀ n, (f n).name = n.name) : (m.nodeMut d l f).node d l = (m.node d l).map f := by
  rw [node, node, device_nodeMut_same]
  rcases m.device d with _ | ld
  · rfl
  apply find_update_same
  intro n h
  simpa [hf n] using h

variable {d l : String}

lemma node_nodeMut_other (m : Model) {d' l' : String} (hf : ∀ n, (f n).name = n.name) (hne : d' = d → l' ≠ l) :
    (m.nodeMut d l f).node d' l' = m.node d' l' := by
  by_cases hd : d' = d
  · have hl := hne hd
    subst hd
    rw [node, node, device_nodeMut_same]
    rcases m.device d' with _ | ld
    · rfl
    apply find_update_other
    intro n h
    have hn : n.name = l := by simpa using h
    simp [hf n, hn, Ne.symm hl]
  have hdev : (m.nodeMut d l f).device d' = m.device d' := by
    apply find_update_other
    intro ld h
    have hn : ld.name = d := by simpa using h
    simp [hn, Ne.symm hd]
  rw [node, node, hdev]

lemma nodeMut_congr (m : Model) {g : LogicalNode → LogicalNode}
    (h : ∀ n, m.node d l = some n → f n = g n) : m.nodeMut d l f = m.nodeMut d l g := by
  have hdev : update (fun ld => ld.name == d)
      (fun ld => { ld with nodes := update (fun n => n.name == l) f ld.nodes }) m.devices =
      update (fun ld => ld.name == d)
        (fun ld => { ld with nodes := update (fun n => n.name == l) g ld.nodes }) m.devices := by
    apply update_congr_fun
    intro ld hld
    have hnds := update_congr_fun (p := fun n => n.name == l) (f := f) (g := g) (l := ld.nodes) ?_
    · rw [hnds]
    intro n hn
    apply h
    rw [node, device, hld]
    exact hn
  rw [nodeMut, nodeMut, hdev]

lemma object_nodeMut (m : Model)
    (hf : ∀ n, (f n).name = n.name) (ho : ∀ n, (f n).objects = n.objects) (d' l' o' : String) :
    (m.nodeMut d l f).object d' l' o' = m.object d' l' o' := by
  by_cases hn : d' = d ∧ l' = l
  · obtain ⟨rfl, rfl⟩ := hn
    rw [object, node_nodeMut_same m d' l' hf, object]
    cases m.node d' l' with
    | none => rfl
    | some n => simp [LogicalNode.object, ho]
  · rw [object, object, node_nodeMut_other m hf fun h1 h2 => hn ⟨h1, h2⟩]

variable (m : Model) {o d' l' o' : String} {f : DataObject → DataObject}

lemma node_objectMut_same : (m.objectMut d l o f).node d l = (m.node d l).map fun n =>
    { n with objects := update (fun x => x.name == o) f n.objects } := by
  apply node_nodeMut_same m d l
  intro n
  rfl

lemma node_objectMut_other (hne : d' = d → l' ≠ l) : (m.objectMut d l o f).node d' l' = m.node d' l' := by
  refine node_nodeMut_other m ?_ hne
  intro n
  rfl

lemma object_objectMut_same (hf : ∀ x, (f x).name = x.name) :
    (m.objectMut d l o f).object d l o = (m.object d l o).map f := by
  rw [object, node_objectMut_same, object]
  rcases m.node d l with _ | n
  · rfl
  apply find_update_same
  intro x h
  simpa [hf x] using h

lemma object_objectMut_other (hf : ∀ x, (f x).name = x.name) (hne : (d', l', o') ≠ (d, l, o)) :
    (m.objectMut d l o f).object d' l' o' = m.object d' l' o' := by
  by_cases hn : d' = d ∧ l' = l
  · obtain ⟨rfl, rfl⟩ := hn
    have ho : o' ≠ o := by simpa using hne
    rw [object, node_objectMut_same, object]
    rcases m.node d' l' with _ | n
    · rfl
    apply find_update_other
    intro x h
    have hx : x.name = o := by simpa using h
    simp [hf x, hx, Ne.symm ho]
  · rw [object, object, node_objectMut_other m fun h1 h2 => hn ⟨h1, h2⟩]

lemma objectMut_congr {g : DataObject → DataObject}
    (h : ∀ x, m.object d l o = some x → f x = g x) : m.objectMut d l o f = m.objectMut d l o g := by
  apply nodeMut_congr
  intro n hn
  have hobj := update_congr_fun (p := fun x => x.name == o) (f := f) (g := g) (l := n.objects) ?_
  · rw [hobj]
  intro x hx
  apply h
  rw [object, hn]
  exact hx

lemma dataSet_objectMut (d' l' ds : String) : (((m.objectMut d l o f).node d' l').bind fun n => n.dataSet ds) =
      (m.node d' l').bind fun n => n.dataSet ds := by
  by_cases hn : d' = d ∧ l' = l
  · obtain ⟨rfl, rfl⟩ := hn
    rw [node_objectMut_same]
    cases m.node d' l' <;> rfl
  · rw [node_objectMut_other m fun h1 h2 => hn ⟨h1, h2⟩]

end Model

open FirstMatch Mms DataAttribute Access DataObject Option ObjectReference

/-- A change of an attribute that leaves its place in the model. -/
structure KeepsPlace (f : DataAttribute → DataAttribute) : Prop where
  name : ∀ a, (f a).name = a.name
  fc : ∀ a, (f a).fc = a.fc
  children : ∀ a, (f a).children = a.children

lemma keepsPlace_put (v : Value) : KeepsPlace fun da => { da with value := some v } :=
  ⟨fun _ => rfl, fun _ => rfl, fun _ => rfl⟩

variable {f : DataAttribute → DataAttribute} {fc fc' : Fc} {rest : List String}

namespace DataAttribute

section
variable (hf : KeepsPlace f)
include hf

lemma descendMut_name (p : List String) (a : DataAttribute) : (descendMut f p a).name = a.name := by
  cases p with
  | nil => exact hf.name a
  | cons n ps => rfl

lemma descendMut_fc (p : List String) (a : DataAttribute) : (descendMut f p a).fc = a.fc := by
  cases p with
  | nil => exact hf.fc a
  | cons n ps => rfl

lemma value_descendMut_other {p q : List String} (hne : p ≠ q)
    (a : DataAttribute) : ((descendMut f p a).descend q).bind value = (a.descend q).bind value := by
  induction p generalizing q a with
  | nil =>
    cases q with
    | nil => exact absurd rfl hne
    | cons n qs => simp only [descendMut, descend, child, hf.children]
  | cons n ps ih =>
    rcases q with _ | ⟨n', qs⟩
    · rfl
    simp only [descendMut, descend, child]
    by_cases hn : n' = n
    · subst hn
      rw [find_update_same fun c hc => by rw [descendMut_name hf]; exact hc]
      cases a.children.find? fun c => c.name == n' with
      | none => rfl
      | some c => exact ih (fun h => hne (by rw [h])) c
    rw [find_update_other]
    intro c hc
    have hnm : c.name = n := by simpa using hc
    rw [descendMut_name hf, hnm]
    simp [Ne.symm hn]

lemma descend_descendMut (p : List String) (a : DataAttribute) :
    (descendMut f p a).descend p = (a.descend p).map f := by
  induction p generalizing a with
  | nil => rfl
  | cons n ps ih =>
    simp only [descendMut, descend, child]
    rw [find_update_same fun c hc => by rw [descendMut_name hf]; exact hc]
    cases a.children.find? fun c => c.name == n with
    | none => rfl
    | some c => exact ih c

end

end DataAttribute

/-- A constraint under which only its own attributes are found. -/
def Fc.Exact (fc : Fc) : Prop := fc ≠ .all ∧ fc ≠ .none

lemma Fc.Exact.matches_iff (h : fc.Exact) (other : Fc) : fc.matchesFc other ↔ fc = other := by
  simp [matchesFc, h.1, h.2]

namespace DataObject

def view (fc : Fc) (q : List String) (o : DataObject) : Option Value :=
  (o.attributeAt fc q).bind value

lemma attributeMut_name (p : List String) (o : DataObject) : (attributeMut fc f p o).name = o.name := by
  cases p with
  | nil => rfl
  | cons first rest =>
    rw [attributeMut]
    split <;> rfl

lemma writeBelowMut_name (p : List String) (o : DataObject) : (writeBelowMut fc f p o).name = o.name := by
  match p with
  | [] => rfl
  | [_] => rfl
  | first :: second :: rest =>
    rw [writeBelowMut]
    · split <;> rfl
    · simp

variable {first : String} {o sub : DataObject}

lemma view_of_child (h : o.child first = some sub) : o.view fc (first :: rest) = sub.view fc rest := by
  simp only [view, attributeAt, h]

lemma view_of_no_child (h : o.child first = none) :
    o.view fc (first :: rest) = ((o.attributes.find? fun a => a.name == first && fc.matchesFc a.fc).bind
      fun a => a.descend rest).bind value := by
  simp only [view, attributeAt, h]

def onChild (first : String) (g : DataObject → DataObject) (o : DataObject) : DataObject :=
  { o with objects := update (fun s => s.name == first) g o.objects }

def onAttribute (test : DataAttribute → Bool) (f : DataAttribute → DataAttribute) (o : DataObject) :
    DataObject := { o with attributes := update test f o.attributes }

lemma attributeMut_of_child (h : o.child first = some sub) :
    attributeMut fc f (first :: rest) o = o.onChild first (attributeMut fc f rest) := by
  simp only [attributeMut, h, onChild]

lemma attributeMut_of_no_child (h : o.child first = none) : attributeMut fc f (first :: rest) o =
      o.onAttribute (fun a => a.name == first && fc.matchesFc a.fc) (descendMut f rest) := by
  simp only [attributeMut, h, onAttribute]

variable {g : DataObject → DataObject} {first' : String}

lemma writeBelowMut_last (first : String) : writeBelowMut fc f [first] o =
      o.onAttribute (fun a => a.name == first && a.fc == fc) (descendMut f []) := rfl

variable {second : String}

lemma writeBelowMut_of_child (h : o.child first = some sub) : writeBelowMut fc f (first :: second :: rest) o =
      o.onChild first (writeBelowMut fc f (second :: rest)) := by
  simp only [writeBelowMut, h, onChild]

lemma writeBelowMut_of_no_child (h : o.child first = none) : writeBelowMut fc f (first :: second :: rest) o =
      o.onAttribute (fun a => a.name == first && a.fc == fc) (descendMut f (second :: rest)) := by
  simp only [writeBelowMut, h, onAttribute]

lemma child_onChild_same (hg : ∀ s, (g s).name = s.name) (h : o.child first = some sub) :
    (o.onChild first g).child first = some (g sub) := by
  have hfind : (o.onChild first g).child first = (o.child first).map g :=
    find_update_same (fun s hs => by rw [hg]; exact hs) o.objects
  rw [hfind, h, map_some]

lemma child_onChild_other (hg : ∀ s, (g s).name = s.name) (hne : first' ≠ first) :
    (o.onChild first g).child first' = o.child first' := by
  apply find_update_other
  intro s hs
  have hnm : s.name = first := by simpa using hs
  rw [hg, hnm]
  simp [Ne.symm hne]

lemma child_onAttribute {test : DataAttribute → Bool} : (o.onAttribute test f).child first = o.child first := rfl

lemma view_onChild_other (hg : ∀ s, (g s).name = s.name) (hne : first' ≠ first) :
    (o.onChild first g).view fc (first' :: rest) = o.view fc (first' :: rest) := by
  have hch : (o.onChild first g).child first' = o.child first' := child_onChild_other hg hne
  cases hc : o.child first' with
  | some sub => rw [view_of_child hc, view_of_child (hch.trans hc)]
  | none =>
    rw [view_of_no_child hc, view_of_no_child (hch.trans hc)]
    rfl

section
variable (hf : KeepsPlace f)
include hf

lemma find_onAttribute_other (test test' : Fc → Bool) (hne : first' = first → ∀ c, test c → test' c = false) :
    ((o.onAttribute (fun a => a.name == first && test a.fc)
        (descendMut f rest)).attributes.find? fun a => a.name == first' && test' a.fc) =
      o.attributes.find? fun a => a.name == first' && test' a.fc := by
  apply find_update_other
  intro a ha
  obtain ⟨hnm, htest⟩ : a.name = first ∧ test a.fc := by simpa using ha
  rw [descendMut_name hf, descendMut_fc hf, hnm]
  by_cases heq : first' = first
  · simp [heq, hne heq a.fc htest]
  · simp [Ne.symm heq]

lemma find_onAttribute_same (test : Fc → Bool) : ((o.onAttribute (fun a => a.name == first && test a.fc)
        (descendMut f rest)).attributes.find? fun a => a.name == first && test a.fc) =
      (o.attributes.find? fun a => a.name == first && test a.fc).map (descendMut f rest) := by
  apply find_update_same
  intro a ha
  rw [descendMut_name hf, descendMut_fc hf]
  exact ha

lemma view_onAttribute_other {rest' : List String}
    {test : Fc → Bool} (hne : first' = first → ∀ c, test c → fc.matchesFc c = false) :
    (o.onAttribute (fun a => a.name == first && test a.fc) (descendMut f rest)).view fc
        (first' :: rest') = o.view fc (first' :: rest') := by
  cases hc : o.child first' with
  | some sub => rw [view_of_child hc, view_of_child (child_onAttribute.trans hc)]
  | none =>
    rw [view_of_no_child hc, view_of_no_child (child_onAttribute.trans hc),
      find_onAttribute_other hf test fc.matchesFc hne]

end

lemma not_matches_of_ne (hx : fc.Exact) (hx' : fc'.Exact) (hne : fc ≠ fc') {c : Fc}
    (hc : fc.matchesFc c) : fc'.matchesFc c = false := by
  rw [← (hx.matches_iff c).mp hc, Bool.eq_false_iff, ne_eq, hx'.matches_iff]
  exact Ne.symm hne

section
variable (hf : KeepsPlace f)
include hf

lemma view_attributeMut_other (hx : fc.Exact) (hx' : fc'.Exact)
    {p q : List String} (hne : fc = fc' → p ≠ q) (o : DataObject) :
    (attributeMut fc f p o).view fc' q = o.view fc' q := by
  induction p generalizing q o with
  | nil => rfl
  | cons first rest ih =>
    rcases q with _ | ⟨first', rest'⟩
    · rfl
    have hrs : first' = first → fc = fc' → rest ≠ rest' := by
      intro h1 h2 h3
      exact hne h2 (by rw [h1, h3])
    cases hch : o.child first with
    | some sub =>
      rw [attributeMut_of_child hch]
      by_cases heq : first' = first
      · subst heq
        rw [view_of_child hch, view_of_child (child_onChild_same (attributeMut_name rest) hch)]
        exact ih (hrs rfl) sub
      · exact view_onChild_other (attributeMut_name rest) heq
    | none =>
      rw [attributeMut_of_no_child hch]
      by_cases hsm : first' = first ∧ fc = fc'
      · obtain ⟨rfl, rfl⟩ := hsm
        rw [view_of_no_child hch, view_of_no_child (child_onAttribute.trans hch),
          find_onAttribute_same hf fc.matchesFc]
        cases o.attributes.find? fun a => a.name == first' && fc.matchesFc a.fc with
        | none => rfl
        | some a => exact value_descendMut_other hf (hrs rfl rfl) a
      apply view_onAttribute_other hf
      intro hfst c hc
      exact not_matches_of_ne hx hx' (fun h => hsm ⟨hfst, h⟩) hc

lemma attributeAt_attributeMut (p : List String) (o : DataObject) :
    (attributeMut fc f p o).attributeAt fc p = (o.attributeAt fc p).map f := by
  induction p generalizing o with
  | nil => rfl
  | cons first rest ih =>
    cases hch : o.child first with
    | some sub =>
      rw [attributeMut_of_child hch]
      simp only [attributeAt, hch, child_onChild_same (attributeMut_name rest) hch]
      exact ih sub
    | none =>
      rw [attributeMut_of_no_child hch]
      simp only [attributeAt, child_onAttribute, hch, find_onAttribute_same hf fc.matchesFc]
      cases o.attributes.find? fun a => a.name == first && fc.matchesFc a.fc with
      | none => rfl
      | some a => exact descend_descendMut hf rest a

lemma view_writeBelowMut_other (hx' : fc'.Exact) (hne : fc ≠ fc') (p q : List String) (o : DataObject) :
    (writeBelowMut fc f p o).view fc' q = o.view fc' q := by
  have htest : ∀ c, (c == fc) → fc'.matchesFc c = false := by
    intro c hc
    rw [eq_of_beq hc, Bool.eq_false_iff, ne_eq, hx'.matches_iff]
    exact Ne.symm hne
  induction p generalizing q o with
  | nil => rfl
  | cons first rest ih =>
    rcases q with _ | ⟨first', rest'⟩
    · rfl
    rcases rest with _ | ⟨second, rest⟩
    · -- The last name of an item is the name of an attribute.
      rw [writeBelowMut_last]
      exact view_onAttribute_other hf fun _ => htest
    cases hch : o.child first with
    | some sub =>
      rw [writeBelowMut_of_child hch]
      by_cases heq : first' = first
      · subst heq
        rw [view_of_child hch, view_of_child (child_onChild_same (writeBelowMut_name (second :: rest)) hch)]
        exact ih rest' sub
      · exact view_onChild_other (writeBelowMut_name (second :: rest)) heq
    | none =>
      rw [writeBelowMut_of_no_child hch]
      exact view_onAttribute_other hf fun _ => htest

lemma writeBelow_writeBelowMut (p : List String) (o : DataObject) :
    writeBelow fc p (writeBelowMut fc f p o) = (writeBelow fc p o).map f := by
  induction p generalizing o with
  | nil => rfl
  | cons first rest ih =>
    rcases rest with _ | ⟨second, rest⟩
    · apply find_update_same
      intro a ha
      rw [hf.name, hf.fc]
      exact ha
    cases hch : o.child first with
    | some sub =>
      rw [writeBelowMut_of_child hch]
      simp only [writeBelow, hch, child_onChild_same (writeBelowMut_name (second :: rest)) hch]
      exact ih sub
    | none =>
      rw [writeBelowMut_of_no_child hch]
      simp only [writeBelow, child_onAttribute, hch, find_onAttribute_same hf fun c => c == fc]
      cases o.attributes.find? fun a => a.name == first && a.fc == fc with
      | none => rfl
      | some a => exact descend_descendMut hf (second :: rest) a

end

variable {n : String} {a : DataAttribute}

section
variable (hf : KeepsPlace f)
include hf

lemma attr_onAttribute_kept (test : Fc → Bool) (h : o.attr n = some a) (hne : n = first → test a.fc = false) :
    (o.onAttribute (fun a => a.name == first && test a.fc) (descendMut f rest)).attr n = some a := by
  have hnm : a.name = n := by simpa using List.find?_some h
  apply find_update_kept ?_ h
  · by_cases heq : n = first
    · simp [hne heq]
    · simp [hnm, heq]
  · intro b
    rw [descendMut_name hf]

lemma attr_attributeMut (hx : fc.Exact) (h : o.attr n = some a) (hne : fc ≠ a.fc)
    (p : List String) : (attributeMut fc f p o).attr n = some a := by
  rcases p with _ | ⟨first, rest⟩
  · exact h
  cases hch : o.child first with
  | some sub =>
    rw [attributeMut_of_child hch]
    exact h
  | none =>
    rw [attributeMut_of_no_child hch]
    apply attr_onAttribute_kept hf _ h
    intro _
    rw [Bool.eq_false_iff, ne_eq, hx.matches_iff]
    exact hne

lemma attr_writeBelowMut (h : o.attr n = some a) (hne : a.fc ≠ fc)
    (p : List String) : (writeBelowMut fc f p o).attr n = some a := by
  match p with
  | [] => exact h
  | [first] =>
    rw [writeBelowMut_last]
    exact attr_onAttribute_kept hf (fun c => c == fc) h fun _ => beq_false_of_ne hne
  | first :: second :: rest =>
    cases hch : o.child first with
    | some sub =>
      rw [writeBelowMut_of_child hch]
      exact h
    | none =>
      rw [writeBelowMut_of_no_child hch]
      exact attr_onAttribute_kept hf (fun c => c == fc) h fun _ => beq_false_of_ne hne

end

end DataObject
def ObjectReference.address (r : ObjectReference) : String × List String := (r.ld, r.path)

namespace Model
variable {m : Model} {r r' : ObjectReference} {v : Value}

def view (m : Model) (r : ObjectReference) (fc : Fc) : Option Value :=
  (m.attribute r fc).bind value

lemma view_of_path {l o : String} (h : r.path = l :: o :: rest) :
    m.view r fc = (m.object r.ld l o).bind fun x => x.view fc rest := by
  simp only [view, Model.attribute, attributeMut, h, bind_assoc]
  rfl

variable {d l o : String} {g : DataObject → DataObject}

lemma view_objectMut_other (hg : ∀ x, (g x).name = x.name)
    (hne : r.ld = d → ∀ rest, r.path ≠ l :: o :: rest) : (m.objectMut d l o g).view r fc = m.view r fc := by
  unfold view Model.attribute attributeMut
  split
  next ln object rest hpath =>
    rw [object_objectMut_other m hg]
    intro heq
    obtain ⟨rfl, rfl, rfl⟩ := triple_inj heq
    exact hne rfl rest hpath
  · rfl

lemma view_objectMut_unseen (hg : ∀ x, (g x).name = x.name)
    (hview : ∀ x q, (g x).view fc q = x.view fc q) : (m.objectMut d l o g).view r fc = m.view r fc := by
  by_cases hsite : r.ld = d ∧ ∃ rest, r.path = l :: o :: rest
  · obtain ⟨rfl, rest, hpath⟩ := hsite
    rw [view_of_path hpath, view_of_path hpath, object_objectMut_same m hg]
    cases m.object r.ld l o with
    | none => rfl
    | some x => exact hview x rest
  apply view_objectMut_other hg
  intro hd rest hpath
  exact hsite ⟨hd, rest, hpath⟩

lemma view_setAttribute_other (hx : fc.Exact) (hx' : fc'.Exact) (hne : fc = fc' → r.address ≠ r'.address) :
    (m.setAttribute r fc v).view r' fc' = m.view r' fc' := by
  unfold setAttribute
  split
  next l o rest hpath =>
    by_cases hsite : r'.ld = r.ld ∧ ∃ rest', r'.path = l :: o :: rest'
    · obtain ⟨hd, rest', hpath'⟩ := hsite
      rw [view_of_path hpath', view_of_path hpath', hd, object_objectMut_same m (attributeMut_name rest)]
      rcases m.object r.ld l o with _ | x
      · rfl
      apply view_attributeMut_other (keepsPlace_put v) hx hx'
      intro hfc hrs
      apply hne hfc
      rw [address, address, hpath, hpath', hd, hrs]
    · apply view_objectMut_other (attributeMut_name rest)
      intro hd rest' hpath'
      exact hsite ⟨hd, rest', hpath'⟩
  · rfl

lemma attributeMut_setAttribute : (m.setAttribute r fc v).attributeMut r fc =
      (m.attributeMut r fc).map fun da => { da with value := some v } := by
  unfold attributeMut setAttribute
  split
  next l o rest hpath =>
    rw [object_objectMut_same m (attributeMut_name rest)]
    cases m.object r.ld l o with
    | none => rfl
    | some x => exact DataObject.attributeAt_attributeMut (keepsPlace_put v) rest x
  · rfl

lemma view_setAttribute_same (h : m.view r fc ≠ none) : (m.setAttribute r fc v).view r fc = some v := by
  unfold view Model.attribute at h ⊢
  rw [attributeMut_setAttribute]
  rcases hat : m.attributeMut r fc with _ | a
  · rw [hat] at h
    exact absurd rfl h
  · rfl

end Model
/-- What a reference resolves to. -/
inductive Node where
  | device (ld : LogicalDevice)
  | node (ln : LogicalNode)
  | object (o : DataObject)
  | attribute (da : DataAttribute)

/-- Descends through sub-objects while they match. -/
def DataObject.deepest : List String → DataObject → DataObject × List String
  | [], o => (o, [])
  | first :: rest, o =>
    match o.child first with
    | some sub => sub.deepest rest
    | none => (o, first :: rest)

def DataObject.resolve (fc : Fc) (o : DataObject) : List String → Option Node
  | [] => some (.object o)
  | first :: rest =>
    (o.attributes.find? fun a => a.name == first && fc.matchesFc a.fc).bind fun da =>
      (da.descend rest).map .attribute

def Model.lookup (m : Model) (r : ObjectReference) (fc : Fc) : Option Node :=
  (m.device r.ld).bind fun ld =>
    match r.path with
    | [] => some (.device ld)
    | ln :: path => (ld.node ln).bind fun ln =>
      match path with
      | [] => some (.node ln)
      | object :: rest => (ln.object object).bind fun o => (o.deepest rest).1.resolve fc (o.deepest rest).2

def Node.attribute? : Node → Option DataAttribute
  | .attribute da => some da
  | _ => none

/-- The attribute that the shared lookup resolves a reference to. -/
def Model.sharedAttribute (m : Model) (r : ObjectReference) (fc : Fc) : Option DataAttribute :=
  (m.lookup r fc).bind Node.attribute?

lemma resolve_deepest (p : List String) (o : DataObject) :
    ((o.deepest p).1.resolve fc (o.deepest p).2).bind Node.attribute? = o.attributeAt fc p := by
  induction p generalizing o with
  | nil => rfl
  | cons first rest ih =>
    rw [deepest, attributeAt]
    cases o.child first with
    | some sub => exact ih sub
    | none =>
      simp only [resolve]
      cases o.attributes.find? fun a => a.name == first && fc.matchesFc a.fc with
      | none => rfl
      | some a =>
        simp only [bind_some]
        cases a.descend rest <;> rfl

lemma sharedAttribute_eq (m : Model) (r : ObjectReference) : m.sharedAttribute r fc = m.attributeMut r fc := by
  unfold Model.sharedAttribute Model.lookup Model.attributeMut Model.object Model.node
  rcases m.device r.ld with _ | ld
  · rcases r.path with _ | ⟨ln, _ | ⟨object, rest⟩⟩ <;> rfl
  rcases r.path with _ | ⟨ln, _ | ⟨object, rest⟩⟩
  · rfl
  · simp only [bind_some]
    cases ld.node ln <;> rfl
  simp only [bind_some]
  rcases ld.node ln with _ | n
  · rfl
  simp only [bind_some]
  cases n.object object with
  | none => rfl
  | some o => exact resolve_deepest rest o

/-- An attribute after `f` at one place in it, where `found` is, or at none. -/
inductive DataAttribute.Written (f : DataAttribute → DataAttribute) (found : Option DataAttribute) :
    DataAttribute → DataAttribute → Prop
  | none {a : DataAttribute} (h : found = none) : Written f found a a
  | here {a : DataAttribute} (h : found = some a) : Written f found a (f a)
  | child {a : DataAttribute} {children : List DataAttribute}
    (h : Replaced (Written f found) a.children children) : Written f found a { a with children := children }

inductive DataObject.Written (f : DataAttribute → DataAttribute) (found : Option DataAttribute) :
    DataObject → DataObject → Prop
  | none {o : DataObject} (h : found = none) : Written f found o o
  | attribute {o : DataObject} {attributes : List DataAttribute}
    (h : Replaced (DataAttribute.Written f found) o.attributes attributes) :
    Written f found o { o with attributes := attributes }
  | object {o : DataObject} {objects : List DataObject}
    (h : Replaced (Written f found) o.objects objects) : Written f found o { o with objects := objects }

lemma written_descendMut (p : List String) (a : DataAttribute) :
    DataAttribute.Written f (a.descend p) a (descendMut f p a) := by
  induction p generalizing a with
  | nil => exact .here rfl
  | cons name rest ih =>
    rw [descend, descendMut]
    cases hc : a.child name with
    | none =>
      rw [update_fixed (by simp [show a.children.find? _ = _ from hc])]
      cases a
      exact .none rfl
    | some c => exact .child (replaced_update hc (ih c))

lemma written_attributeMut (p : List String) (o : DataObject) :
    DataObject.Written f (o.attributeAt fc p) o (attributeMut fc f p o) := by
  induction p generalizing o with
  | nil => exact .none rfl
  | cons first rest ih =>
    rw [attributeAt, attributeMut]
    cases hc : o.child first with
    | some sub => exact .object (replaced_update hc (ih sub))
    | none =>
      simp only
      cases ha : o.attributes.find? fun a => a.name == first && fc.matchesFc a.fc with
      | none =>
        rw [update_fixed (by simp [ha])]
        cases o
        exact .none rfl
      | some a => exact .attribute (replaced_update ha (written_descendMut rest a))

/-- A model after `f` at one place in it, where `found` is, or at none. -/
inductive Model.Written (f : DataAttribute → DataAttribute) (found : Option DataAttribute) (m : Model) : Model → Prop
  | none (h : found = none) : Written f found m m
  | object {devices : List LogicalDevice}
    (h : Replaced (fun ld ld' => ∃ nodes, ld' = { ld with nodes := nodes } ∧
      Replaced (fun ln ln' => ∃ objects, ln' = { ln with objects := objects } ∧
        Replaced (DataObject.Written f found) ln.objects objects) ld.nodes nodes) m.devices devices) :
    Written f found m { m with devices := devices }

lemma objectMut_absent {m : Model} {d l o : String} {g : DataObject → DataObject} (h : m.object d l o = none) :
    m.objectMut d l o g = m := by
  unfold Model.objectMut Model.nodeMut
  simp only
  rw [update_fixed]
  intro ld hld
  rw [update_fixed]
  intro n hn
  rw [update_fixed]
  intro x hx
  simp [Model.object, Model.node, Model.device, hld, LogicalDevice.node, hn, LogicalNode.object, hx] at h

lemma written_setAttribute (m : Model) (r : ObjectReference) (v : Value) :
    m.Written (fun da => { da with value := some v }) (m.attributeMut r fc) (m.setAttribute r fc v) := by
  unfold Model.setAttribute Model.attributeMut
  split
  next ln object rest _ =>
    rcases hx : m.object r.ld ln object with _ | x
    · rw [objectMut_absent hx]
      exact .none rfl
    obtain ⟨n, hn, ho⟩ := bind_eq_some_iff.mp hx
    obtain ⟨ld, hld, hn⟩ := bind_eq_some_iff.mp hn
    exact .object (replaced_update hld ⟨_, rfl, replaced_update hn ⟨_, rfl,
      replaced_update ho (written_attributeMut rest x)⟩⟩)
  · exact .none rfl

/-- The shared lookup and the mutable one find the same attribute of the tree, or both none: a value written
through the one is read through the other, and no other place changes. -/
theorem lookups_agree (m : Model) (r : ObjectReference) (fc : Fc) (v : Value) :
    m.sharedAttribute r fc = m.attributeMut r fc ∧
    (m.setAttribute r fc v).sharedAttribute r fc =
      (m.sharedAttribute r fc).map (fun da => { da with value := some v }) ∧
    m.Written (fun da => { da with value := some v }) (m.sharedAttribute r fc) (m.setAttribute r fc v) := by
  refine ⟨sharedAttribute_eq m r, ?_, ?_⟩
  · rw [sharedAttribute_eq, sharedAttribute_eq, Model.attributeMut_setAttribute]
  · rw [sharedAttribute_eq]
    exact written_setAttribute m r v

end Iec61850

namespace Iec61850.Mms

/-- A type specification. The size is a width in bits or a length, negative for a maximum. -/
structure TypeSpec where
  kind : Option ValueType := none
  size : Int32 := 0
  elements : ℕ := 0
  element : Option TypeSpec := none
  components : List (String × TypeSpec) := []

namespace TypeSpec

def scalar (kind : ValueType) : TypeSpec := { kind := some kind }
def sized (kind : ValueType) (size : Int32) : TypeSpec := { kind := some kind, size := size }

def array (elements : ℕ) (element : TypeSpec) : TypeSpec :=
  { kind := some .array, elements := elements, element := some element }

def struct (components : List (String × TypeSpec)) : TypeSpec :=
  { kind := some .struct, components := components }

end TypeSpec

mutual
def Value.conforms : Value → TypeSpec → Bool
  | .struct members, t => t.kind == some .struct && Value.conformEach members t.components
  | .array children, t =>
    t.kind == some .array && children.length == t.elements && Value.conformAll children t.element
  | v, t => t.kind == some v.typeOf

def Value.conformEach : List Value → List (String × TypeSpec) → Bool
  | [], components => components.isEmpty
  | v :: vs, components =>
    match components with
    | [] => false
    | (_, t) :: ts => v.conforms t && Value.conformEach vs ts

def Value.conformAll : List Value → Option TypeSpec → Bool
  | [], _ => true
  | v :: vs, element =>
    match element with
    | .none => false
    | .some t => v.conforms t && Value.conformAll vs (some t)
end

namespace Value
variable {v : Value} {vs : List Value} {t : TypeSpec} {components : List (String × TypeSpec)}

lemma conformEach_length (h : conformEach vs components) : vs.length = components.length := by
  induction vs generalizing components with
  | nil =>
    have hnil : components = [] := by simpa [conformEach] using h
    simp [hnil]
  | cons v vs ih =>
    rcases components with _ | ⟨c, cs⟩
    · simp [conformEach] at h
    have hrs : conformEach vs cs := by
      simp only [conformEach, Bool.and_eq_true] at h
      exact h.2
    simp [ih hrs]

lemma conformEach_append {ws : List Value} {others : List (String × TypeSpec)}
    (hlen : vs.length = components.length) : conformEach (vs ++ ws) (components ++ others) =
      (conformEach vs components && conformEach ws others) := by
  induction vs generalizing components with
  | nil =>
    have hnil : components = [] := List.eq_nil_of_length_eq_zero hlen.symm
    simp [hnil, conformEach]
  | cons v vs ih =>
    cases components with
    | nil => simp at hlen
    | cons c cs =>
      have hrs : vs.length = cs.length := by simpa using hlen
      simp [conformEach, ih hrs, Bool.and_assoc]

lemma conformAll_replicate (n : ℕ) : conformAll (List.replicate n v) (some t) ↔ n = 0 ∨ v.conforms t := by
  induction n with
  | zero => simp [conformAll]
  | succ n ih =>
    simp only [List.replicate_succ, conformAll, Bool.and_eq_true, ih]
    constructor
    · intro h
      exact .inr h.1
    intro h
    have hv : v.conforms t := h.resolve_left (Nat.succ_ne_zero n)
    exact ⟨hv, .inr hv⟩

@[simp] lemma conforms_struct : (Value.struct vs).conforms (.struct components) = conformEach vs components := by
  simp [conforms, TypeSpec.struct]

lemma conforms_array_replicate (n : ℕ) : (Value.array (List.replicate n v)).conforms (.array n t) ↔
      n = 0 ∨ v.conforms t := by
  simp [conforms, TypeSpec.array, conformAll_replicate]

end Value
end Iec61850.Mms

namespace Iec61850

def Fc.text (fc : Fc) (raw : String) : String :=
  if fc ≠ .unknown then fc.asStr
  else
    let u := Text.toAsciiUppercase (Text.trim raw)
    if u = "" then fc.asStr else u

def noteFc (seen : List Fc) (fc : Fc) : List Fc := if seen.contains fc then seen else seen ++ [fc]

def Fc.sorted (l : List Fc) : List Fc := l.insertionSort fun a b => a.ctorIdx ≤ b.ctorIdx

namespace DataObject

mutual
def walkFcs : DataObject → List Fc → List Fc
  | ⟨_, objects, attributes, _⟩, seen =>
    walkFcsAll objects (attributes.foldl (fun s a => noteFc s a.fc) seen)

def walkFcsAll : List DataObject → List Fc → List Fc
  | [], seen => seen
  | s :: ss, seen => walkFcsAll ss (walkFcs s seen)
end

def fcs (o : DataObject) : List Fc := Fc.sorted (walkFcs o [])

mutual
def walkText (fc : Fc) : DataObject → Option String
  | ⟨_, objects, attributes, _⟩ =>
    match attributes.find? fun a => a.fc == fc with
    | some a => some (a.fc.text a.fcName)
    | none => walkTextAll fc objects

def walkTextAll (fc : Fc) : List DataObject → Option String
  | [] => none
  | s :: ss =>
    match walkText fc s with
    | some t => some t
    | none => walkTextAll fc ss
end

def fcText (o : DataObject) (fc : Fc) : String := (walkText fc o).getD fc.asStr

mutual
def Carries (fc : Fc) : DataObject → Prop
  | ⟨_, objects, attributes, _⟩ => (∃ a ∈ attributes, a.fc = fc) ∨ CarriesAny fc objects

def CarriesAny (fc : Fc) : List DataObject → Prop
  | [] => False
  | s :: ss => Carries fc s ∨ CarriesAny fc ss
end

lemma carriesAny_iff {fc : Fc} {objects : List DataObject} : CarriesAny fc objects ↔ ∃ s ∈ objects, s.Carries fc := by
  induction objects with
  | nil => simp [CarriesAny]
  | cons s ss ih => simp [CarriesAny, ih]

lemma carries_iff {fc : Fc} {o : DataObject} :
    o.Carries fc ↔ (∃ a ∈ o.attributes, a.fc = fc) ∨ ∃ s ∈ o.objects, s.Carries fc := by
  cases o
  rw [Carries, carriesAny_iff]

end DataObject

variable {α : Type*} {seen : List Fc} {fc : Fc}

lemma mem_noteFc {fc' : Fc} : fc ∈ noteFc seen fc' ↔ fc ∈ seen ∨ fc = fc' := by
  unfold noteFc
  split
  next h =>
    have hm : fc' ∈ seen := by simpa using h
    constructor
    · exact .inl
    rintro (h | rfl)
    · exact h
    · exact hm
  · simp

lemma mem_foldl_noteFc (f : α → Fc) (l : List α) :
    fc ∈ l.foldl (fun s a => noteFc s (f a)) seen ↔ fc ∈ seen ∨ ∃ a ∈ l, f a = fc := by
  induction l generalizing seen with
  | nil => simp
  | cons a l ih =>
    rw [List.foldl_cons, ih, mem_noteFc, List.exists_mem_cons_iff, or_assoc, eq_comm]

lemma mem_sorted {l : List Fc} : fc ∈ Fc.sorted l ↔ fc ∈ l := List.mem_insertionSort _

namespace DataObject

mutual
theorem mem_walkFcs : ∀ (o : DataObject) (seen : List Fc), fc ∈ walkFcs o seen ↔ fc ∈ seen ∨ o.Carries fc
  | ⟨_, objects, attributes, _⟩, seen => by
    rw [walkFcs, mem_walkFcsAll objects, mem_foldl_noteFc DataAttribute.fc, Carries, or_assoc]

theorem mem_walkFcsAll : ∀ (objects : List DataObject) (seen : List Fc),
    fc ∈ walkFcsAll objects seen ↔ fc ∈ seen ∨ CarriesAny fc objects
  | [], seen => by simp [walkFcsAll, CarriesAny]
  | s :: ss, seen => by
    rw [walkFcsAll, mem_walkFcsAll ss, mem_walkFcs s, CarriesAny, or_assoc]
end

lemma mem_fcs {o : DataObject} : fc ∈ o.fcs ↔ o.Carries fc := by
  unfold fcs
  rw [mem_sorted, mem_walkFcs]
  simp

end DataObject

end Iec61850

namespace Iec61850.Access
open Mms

def hasFc (o : DataObject) (fc : Fc) : Bool := o.fcs.contains fc

def constraints (ln : LogicalNode) : List Fc :=
  Fc.sorted (ln.objects.foldl (fun order o => o.fcs.foldl noteFc order) [])

lemma mem_foldl_fcs {fc : Fc} (objects : List DataObject) (seen : List Fc) :
    fc ∈ objects.foldl (fun order o => o.fcs.foldl noteFc order) seen ↔ fc ∈ seen ∨ ∃ o ∈ objects, hasFc o fc := by
  induction objects generalizing seen with
  | nil => simp
  | cons o objects ih =>
    have hown : fc ∈ o.fcs.foldl noteFc seen ↔ fc ∈ seen ∨ hasFc o fc := by
      have hnote : fc ∈ o.fcs.foldl (fun s a => noteFc s (id a)) seen ↔
          fc ∈ seen ∨ ∃ a ∈ o.fcs, id a = fc := mem_foldl_noteFc id o.fcs
      simpa [hasFc] using hnote
    rw [List.foldl_cons, ih, hown, List.exists_mem_cons_iff, or_assoc]

lemma mem_constraints {fc : Fc} {ln : LogicalNode} : fc ∈ constraints ln ↔ ∃ o ∈ ln.objects, hasFc o fc := by
  rw [constraints, mem_sorted, mem_foldl_fcs]
  simp

def fcNameFor (ln : LogicalNode) (fc : Fc) : String :=
  match ln.objects.find? fun o => hasFc o fc with
  | some o => o.fcText fc
  | none => fc.asStr

mutual
def appendAttrNames (fc : Fc) (start : String) : DataAttribute → List String
  | ⟨name, fc', _, _, _, children, _, _, _⟩ =>
    if fc' ≠ fc then []
    else
      let p := start ++ "$" ++ name
      p :: appendAllAttrNames fc p children

def appendAllAttrNames (fc : Fc) (start : String) : List DataAttribute → List String
  | [] => []
  | a :: as => appendAttrNames fc start a ++ appendAllAttrNames fc start as
end

mutual
def appendSubDoNames (fc : Fc) (start : String) : DataObject → List String
  | ⟨name, objects, attributes, cdc⟩ =>
    if hasFc ⟨name, objects, attributes, cdc⟩ fc then
      let p := start ++ "$" ++ name
      p :: (appendAllAttrNames fc p attributes ++ appendAllSubDoNames fc p objects)
    else []

def appendAllSubDoNames (fc : Fc) (start : String) : List DataObject → List String
  | [] => []
  | s :: ss => appendSubDoNames fc start s ++ appendAllSubDoNames fc start ss
end

def namesForNode (ln : LogicalNode) : List String :=
  ln.name :: (constraints ln).flatMap fun fc =>
    let start := ln.name ++ "$" ++ fcNameFor ln fc
    start :: appendAllSubDoNames fc start ln.objects

def namesForDomain (ld : LogicalDevice) : List String := ld.nodes.flatMap namesForNode

def btypes : List (String × ValueType × Int32) :=
  [("INT8", .integer, 8), ("Enum", .integer, 8), ("INT16", .integer, 16), ("INT32", .integer, 32),
    ("INT64", .integer, 64), ("INT8U", .unsigned, 8), ("INT16U", .unsigned, 16),
    ("INT24U", .unsigned, 24), ("INT32U", .unsigned, 32), ("VisString32", .visibleString, 32),
    ("VisString64", .visibleString, 64), ("VisString65", .visibleString, 65),
    ("VisString129", .visibleString, 129), ("ObjRef", .visibleString, 129),
    ("VisString255", .visibleString, 255), ("Unicode255", .mmsString, 255)]

def btypeTypeSpec (btype : String) : Option TypeSpec :=
  (btypes.find? fun e => e.1 == btype).map fun e => .sized e.2.1 e.2.2

/-- The declared type of a leaf from the value it holds; an array is described by its first element. -/
def valueTypeSpec : Value → TypeSpec
  | .bitString bs => .sized .bitString (-(Int32.ofNat bs.length))
  | .integer _ => .sized .integer 32
  | .unsigned _ => .sized .unsigned 32
  | .visibleString _ => .sized .visibleString 129
  | .octetString _ => .sized .octetString 64
  | .array [] => .array 0 (.scalar .boolean)
  | .array (v :: vs) => .array (vs.length + 1) (valueTypeSpec v)
  | v => .scalar v.typeOf

def leafTypeSpec (kind : Option ValueType) (btype : String) (count : ℕ) (value : Option Value) :
    TypeSpec :=
  match btypeTypeSpec btype with
  | some el => if kind = some .array then .array count el else el
  | none =>
    match value with
    | some v => valueTypeSpec v
    | none => .scalar .boolean

mutual
def daTypeSpec : DataAttribute → TypeSpec
  | ⟨_, _, kind, btype, count, children, value, _, _⟩ =>
    if children.isEmpty then leafTypeSpec kind btype count value
    else
      let ts := TypeSpec.struct (daTypeSpecs children)
      if kind = some .array then .array count ts else ts

def daTypeSpecs : List DataAttribute → List (String × TypeSpec)
  | [] => []
  | c :: cs => (c.name, daTypeSpec c) :: daTypeSpecs cs
end

mutual
def doTypeSpec (fc : Fc) : DataObject → TypeSpec
  | ⟨_, objects, attributes, _⟩ =>
    .struct (daTypeSpecs (attributes.filter fun a => a.fc == fc) ++ doTypeSpecs fc objects)

def doTypeSpecs (fc : Fc) : List DataObject → List (String × TypeSpec)
  | [] => []
  | s :: ss =>
    if hasFc s fc then (s.name, doTypeSpec fc s) :: doTypeSpecs fc ss else doTypeSpecs fc ss
end

def fcTypeSpec (ln : LogicalNode) (fc : Fc) : TypeSpec := .struct (doTypeSpecs fc ln.objects)

def lnTypeSpec (ln : LogicalNode) : TypeSpec :=
  .struct ((constraints ln).map fun fc => (fcNameFor ln fc, fcTypeSpec ln fc))

def typeBelow (fc : Fc) : List String → DataObject → Option TypeSpec
  | [], o => some (doTypeSpec fc o)
  | first :: rest, o =>
    match o.child first with
    | some sub => typeBelow fc rest sub
    | none =>
      ((o.attributes.find? fun a => a.name == first && a.fc == fc).bind (·.descend rest)).map daTypeSpec

def typeSpecFor (ln : LogicalNode) (item : String) : Option TypeSpec :=
  match Text.split '$' item with
  | [] => none
  | [_] => some (lnTypeSpec ln)
  | [_, fc] => some (fcTypeSpec ln (Fc.parseLenient fc))
  | _ :: fc :: object :: rest =>
    (ln.object object).bind (typeBelow (Fc.parseLenient fc) rest)

end Iec61850.Access
