import Mathlib.Data.List.Nodup

/-! Trees of labels and the paths to their nodes. -/
namespace PathTree
open List

inductive NameTree (α : Type*) where
  | node (label : α) (children : List (NameTree α))

namespace NameTree
variable {α : Type*}

def label : NameTree α → α
  | node l _ => l

def children : NameTree α → List (NameTree α)
  | node _ cs => cs

mutual
def paths : NameTree α → List (List α)
  | node l cs => [l] :: (forestPaths cs).map (l :: ·)

def forestPaths : List (NameTree α) → List (List α)
  | [] => []
  | t :: ts => paths t ++ forestPaths ts
end

mutual
def Distinct : List (NameTree α) → Prop
  | [] => True
  | t :: ts => DistinctBelow t ∧ (∀ u ∈ ts, u.label ≠ t.label) ∧ Distinct ts

def DistinctBelow : NameTree α → Prop
  | node _ cs => Distinct cs
end

mutual
def decidableDistinct [DecidableEq α] : (ts : List (NameTree α)) → Decidable (Distinct ts)
  | [] => instDecidableTrue
  | t :: ts =>
    have := decidableDistinctBelow t
    have := decidableDistinct ts
    inferInstanceAs (Decidable (DistinctBelow t ∧ (∀ u ∈ ts, u.label ≠ t.label) ∧ Distinct ts))

def decidableDistinctBelow [DecidableEq α] : (t : NameTree α) → Decidable (DistinctBelow t)
  | node _ cs => decidableDistinct cs
end

instance [DecidableEq α] (ts : List (NameTree α)) : Decidable (Distinct ts) := decidableDistinct ts

variable {t : NameTree α} {ts : List (NameTree α)} {p q : List α} {l : α}

lemma mem_forestPaths : p ∈ forestPaths ts ↔ ∃ t ∈ ts, p ∈ paths t := by
  induction ts with
  | nil => simp [forestPaths]
  | cons t ts ih => simp [forestPaths, ih]

lemma forestPaths_append (ts us : List (NameTree α)) : forestPaths (ts ++ us) = forestPaths ts ++ forestPaths us := by
  induction ts with
  | nil => rfl
  | cons t ts ih => rw [cons_append, forestPaths, forestPaths, ih, append_assoc]

lemma mem_paths : p ∈ paths t ↔ ∃ q, p = t.label :: q ∧ (q = [] ∨ q ∈ forestPaths t.children) := by
  cases t with
  | node l cs =>
    simp only [paths, label, children, mem_cons, mem_map]
    constructor
    · rintro (rfl | ⟨q, hq, rfl⟩)
      · exact ⟨[], rfl, .inl rfl⟩
      · exact ⟨q, rfl, .inr hq⟩
    rintro ⟨q, rfl, rfl | hq⟩
    · exact .inl rfl
    · exact .inr ⟨q, hq, rfl⟩

lemma cons_mem_forestPaths : l :: q ∈ forestPaths ts ↔
    ∃ t ∈ ts, t.label = l ∧ (q = [] ∨ q ∈ forestPaths t.children) := by
  rw [mem_forestPaths]
  constructor
  · rintro ⟨t, ht, hp⟩
    obtain ⟨q', heq, hq⟩ := mem_paths.mp hp
    obtain ⟨rfl, rfl⟩ := cons.inj heq
    exact ⟨t, ht, rfl, hq⟩
  · rintro ⟨t, ht, rfl, hq⟩
    exact ⟨t, ht, mem_paths.mpr ⟨q, rfl, hq⟩⟩

lemma ne_nil_of_mem_forestPaths (h : p ∈ forestPaths ts) : p ≠ [] := by
  obtain ⟨t, -, hp⟩ := mem_forestPaths.mp h
  obtain ⟨q, rfl, -⟩ := mem_paths.mp hp
  exact cons_ne_nil _ _

lemma distinct_iff : Distinct ts ↔ (ts.map label).Nodup ∧ ∀ t ∈ ts, Distinct t.children := by
  induction ts with
  | nil => simp [Distinct]
  | cons t ts ih =>
    have hbelow : DistinctBelow t ↔ Distinct t.children := by
      cases t
      rw [DistinctBelow, children]
    have hfre : (∀ u ∈ ts, u.label ≠ t.label) ↔ t.label ∉ ts.map label := by
      simp [mem_map]
    rw [Distinct, ih, hbelow, hfre, map_cons, nodup_cons, forall_mem_cons]
    tauto

mutual
theorem nodup_paths : ∀ t : NameTree α, (paths t).Nodup ↔ DistinctBelow t
  | node l cs => by
    have hinj : Function.Injective (l :: · : List α → List α) := fun _ _ h => (cons.inj h).2
    have hhead : [l] ∉ (forestPaths cs).map (l :: ·) := by
      intro h
      obtain ⟨q, hq, heq⟩ := mem_map.mp h
      exact ne_nil_of_mem_forestPaths hq (cons.inj heq).2
    rw [paths, DistinctBelow, nodup_cons, nodup_map_iff hinj, nodup_forestPaths cs]
    exact and_iff_right hhead

theorem nodup_forestPaths : ∀ ts : List (NameTree α), (forestPaths ts).Nodup ↔ Distinct ts
  | [] => by simp [forestPaths, Distinct]
  | t :: ts => by
    -- Paths from two trees meet exactly when the trees have one label.
    have hmeet : (∀ p ∈ paths t, ∀ p' ∈ forestPaths ts, p ≠ p') ↔ ∀ u ∈ ts, u.label ≠ t.label := by
      constructor
      · intro h u hu heq
        have hp : [t.label] ∈ paths t := mem_paths.mpr ⟨[], rfl, .inl rfl⟩
        have hp' : [t.label] ∈ forestPaths ts := cons_mem_forestPaths.mpr ⟨u, hu, heq, .inl rfl⟩
        exact h _ hp _ hp' rfl
      intro h p hp p' hp' heq
      obtain ⟨q, rfl, -⟩ := mem_paths.mp hp
      subst heq
      obtain ⟨u, hu, hlabel, -⟩ := cons_mem_forestPaths.mp hp'
      exact h u hu hlabel
    rw [forestPaths, Distinct, nodup_append, nodup_paths t, nodup_forestPaths ts, hmeet]
    tauto
end

end NameTree
end PathTree
