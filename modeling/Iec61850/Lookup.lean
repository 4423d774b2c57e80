import Mathlib.Data.List.AList
import Mathlib.Data.List.GetD

/-! Tables from keys to values, lists as tables by position, and lists searched for the first match. -/
namespace Iec61850
open List AList

abbrev Table (κ ν : Type) := AList (fun _ : κ => ν)

namespace Table
variable {κ ν : Type}

def retain (p : κ → ν → Bool) (t : Table κ ν) : Table κ ν :=
  ⟨t.entries.filter fun e => p e.1 e.2, t.nodupKeys.sublist List.filter_sublist⟩

def mapValues {ν' : Type} (f : ν → ν') (t : Table κ ν) : Table κ ν' :=
  ⟨t.entries.map fun e => ⟨e.1, f e.2⟩, by
    have hkeys : (t.entries.map fun e => (⟨e.1, f e.2⟩ : Sigma fun _ : κ => ν')).keys = t.entries.keys := List.map_map
    rw [List.NodupKeys, hkeys]
    exact t.nodupKeys⟩

variable [DecidableEq κ] {k : κ} {t : Table κ ν} {v : ν}

lemma lookup_mapValues {ν' : Type} {f : ν → ν'} : (t.mapValues f).lookup k = (t.lookup k).map f := by
  apply Option.ext
  intro v
  rw [← Option.mem_def, mem_lookup_iff, Option.map_eq_some_iff]
  constructor
  · intro h
    obtain ⟨e, he, heq⟩ := mem_map.mp h
    cases heq
    exact ⟨e.2, mem_lookup_iff.mpr he, rfl⟩
  · rintro ⟨v0, h, rfl⟩
    exact mem_map.mpr ⟨⟨k, v0⟩, mem_lookup_iff.mp h, rfl⟩

lemma lookup_retain_eq_some {p : κ → ν → Bool} : (t.retain p).lookup k = some v ↔ t.lookup k = some v ∧ p k v := by
  have hm (s : Table κ ν) : s.lookup k = some v ↔ (⟨k, v⟩ : Sigma fun _ : κ => ν) ∈ s.entries := mem_lookup_iff
  rw [hm, hm, retain, mem_filter]

def All (P : κ → ν → Prop) (t : Table κ ν) : Prop := ∀ k v, t.lookup k = some v → P k v

variable {P : κ → ν → Prop} {t : Table κ ν} {k' : κ}

lemma all_empty : All P (∅ : Table κ ν) := by
  intro k v h
  simp at h

lemma all_of_entries (h : ∀ e ∈ t.entries, P e.1 e.2) : All P t := by
  intro k v hk
  exact h ⟨k, v⟩ (mem_lookup_iff.mp hk)

instance decidableAll [∀ k v, Decidable (P k v)] : Decidable (All P t) :=
  decidable_of_iff (∀ e ∈ t.entries, P e.1 e.2)
    ⟨all_of_entries, fun h e he => h e.1 e.2 (AList.mem_lookup_iff.mpr he)⟩

lemma lookup_insert_eq_some {v' : ν} :
    (t.insert k v).lookup k' = some v' ↔ k' = k ∧ v = v' ∨ k' ≠ k ∧ t.lookup k' = some v' := by
  by_cases heq : k' = k
  · subst heq
    simp
  · simp [heq]

lemma All.insert (h : All P t) (hv : P k v) : All P (t.insert k v) := by
  intro k' v' hk
  rcases lookup_insert_eq_some.mp hk with ⟨rfl, rfl⟩ | ⟨-, hk⟩
  · exact hv
  · exact h k' v' hk

lemma lookup_erase_eq_some : (t.erase k).lookup k' = some v ↔ k' ≠ k ∧ t.lookup k' = some v := by
  by_cases heq : k' = k
  · subst heq
    simp
  · simp [heq]

lemma mem_foldl_insert {β : Type} {key : β → κ} {val : β → ν} (l : List β) (t : Table κ ν)
    {x : Sigma fun _ : κ => ν} (h : x ∈ (l.foldl (fun t b => t.insert (key b) (val b)) t).entries) :
    x ∈ t.entries ∨ ∃ b ∈ l, x = ⟨key b, val b⟩ := by
  induction l generalizing t with
  | nil => exact .inl h
  | cons b rest ih =>
    rcases ih _ h with hx | ⟨b', hb', rfl⟩
    · rw [entries_insert] at hx
      rcases mem_cons.mp hx with rfl | hx
      · exact .inr ⟨b, mem_cons_self, rfl⟩
      · exact .inl ((kerase_sublist _ _).subset hx)
    · exact .inr ⟨b', mem_cons_of_mem _ hb', rfl⟩

end Table
end Iec61850

namespace Iec61850.ListIndex
open List Option
variable {α : Type} {l : List α} {f : α → α} {a b : α} {j k : ℕ}

lemma getElem?_modify_of_ne (hne : j ≠ k) : (l.modify k f)[j]? = l[j]? := by
  rw [getElem?_modify]
  simp [hne.symm]

lemma getElem?_modify_self (ha : l[k]? = some a) : (l.modify k f)[k]? = some (f a) := by
  rw [getElem?_modify, ha]
  simp

lemma modify_cases (h : (l.modify k f)[j]? = some a) :
    (j = k ∧ ∃ a0, l[k]? = some a0 ∧ a = f a0) ∨ (j ≠ k ∧ l[j]? = some a) := by
  by_cases hk : j = k
  · left
    subst hk
    cases ha : l[j]? with
    | none =>
      rw [getElem?_modify, ha] at h
      cases h
    | some a0 =>
      rw [getElem?_modify_self ha] at h
      exact ⟨rfl, a0, rfl, (some.inj h).symm⟩
  · right
    rw [getElem?_modify_of_ne hk] at h
    exact ⟨hk, h⟩

lemma map_modify_of_eq {β : Type} {g : α → β} (h : ∀ a, l[k]? = some a → g (f a) = g a) :
    (l.modify k f).map g = l.map g := by
  apply ext_getElem?
  intro j
  rw [getElem?_map, getElem?_map]
  by_cases hj : j = k
  · subst hj
    cases ha : l[j]? with
    | none =>
      rw [getElem?_modify, ha]
      rfl
    | some a => rw [getElem?_modify_self ha, map_some, map_some, h a ha]
  · rw [getElem?_modify_of_ne hj]

lemma set_cases (h : (l.set k b)[j]? = some a) : (j = k ∧ a = b) ∨ (j ≠ k ∧ l[j]? = some a) := by
  by_cases hk : k = j
  · subst hk
    have hlt : k < l.length := by
      have hset : k < (l.set k b).length := (List.getElem?_eq_some_iff.mp h).1
      rwa [List.length_set] at hset
    rw [List.getElem?_set_self hlt] at h
    exact .inl ⟨rfl, (Option.some.inj h).symm⟩
  · rw [List.getElem?_set_ne hk] at h
    exact .inr ⟨Ne.symm hk, h⟩

lemma append_cases (h : (l ++ [b])[k]? = some a) : l[k]? = some a ∨ (k = l.length ∧ a = b) := by
  rcases Nat.lt_or_ge k l.length with hlt | hge
  · rw [getElem?_append_left hlt] at h
    exact .inl h
  rw [getElem?_append_right hge, getElem?_singleton] at h
  split at h
  · exact .inr ⟨by omega, (some.inj h).symm⟩
  · cases h

lemma getElem?_append_of_some (h : l[k]? = some a) : (l ++ [b])[k]? = some a := by
  have hlt : k < l.length := (List.getElem?_eq_some_iff.mp h).1
  rw [List.getElem?_append_left hlt, h]

end Iec61850.ListIndex

namespace Iec61850.FirstMatch
open List
variable {α : Type} {p q : α → Bool} {f : α → α} {l : List α} {a : α}

def update (p : α → Bool) (f : α → α) : List α → List α
  | [] => []
  | a :: as => if p a then f a :: as else a :: update p f as

lemma update_of_none (h : ∀ a ∈ l, p a = false) : update p f l = l := by
  induction l with
  | nil => rfl
  | cons a as ih =>
    rw [update, h a mem_cons_self, ih fun b hb => h b (mem_cons_of_mem _ hb)]
    rfl

lemma find_update_same (hf : ∀ a, p a → p (f a)) (l : List α) : (update p f l).find? p = (l.find? p).map f := by
  induction l with
  | nil => rfl
  | cons a as ih =>
    by_cases ha : p a
    · simp [update, ha, hf a ha]
    · simpa [update, ha] using ih

lemma find_update_other (hq : ∀ a, p a → q a = false ∧ q (f a) = false) (l : List α) :
    (update p f l).find? q = l.find? q := by
  induction l with
  | nil => rfl
  | cons a as ih =>
    by_cases ha : p a
    · obtain ⟨h1, h2⟩ := hq a ha
      simp [update, ha, h1, h2]
    · simp [update, ha, find?_cons, ih]

lemma find_update_kept (hq : ∀ a, q (f a) = q a)
    (ha : l.find? q = some a) (hp : p a = false) : (update p f l).find? q = some a := by
  induction l with
  | nil => cases ha
  | cons b bs ih =>
    rw [update]
    by_cases hb : q b
    · have heq : b = a := by simpa [hb] using ha
      subst heq
      simp [hp, hb]
    have hrs : bs.find? q = some a := by simpa [hb] using ha
    split
    · simpa [hq b, hb] using hrs
    · simpa [hb] using ih hrs

lemma find_of_wider (hqp : ∀ a, q a → p a) (ha : l.find? p = some a) (hq : q a) : l.find? q = some a := by
  obtain ⟨-, before, after, rfl, hbef⟩ := find?_eq_some_iff_append.mp ha
  refine find?_eq_some_iff_append.mpr ⟨hq, before, after, rfl, ?_⟩
  intro b hb
  have hno := hbef b hb
  simp only [Bool.not_eq_true'] at hno ⊢
  exact Bool.eq_false_iff.mpr fun h => Bool.eq_false_iff.mp hno (hqp b h)

lemma update_of_wider (hqp : ∀ a, q a → p a) (ha : l.find? p = some a) (hq : q a) : update q f l = update p f l := by
  induction l with
  | nil => rfl
  | cons b bs ih =>
    rw [update, update]
    by_cases hb : p b
    · have heq : b = a := by simpa [hb] using ha
      subst heq
      simp [hq, hb]
    have hqb : ¬ q b := fun h => hb (hqp b h)
    have hrs : bs.find? p = some a := by simpa [hb] using ha
    simp [hqb, hb, ih hrs]

lemma find_update_hit (hpq : ∀ a, p a → q a) (hq : ∀ a, q (f a) = q a) (ha : l.find? q = some a) (hp : p a) :
    (update p f l).find? q = some (f a) := by
  rw [update_of_wider hpq ha hp, find_update_same fun b hb => (hq b).trans hb, ha]
  rfl

lemma mem_update {x : α} (h : x ∈ update p f l) : x ∈ l ∨ ∃ a ∈ l, x = f a := by
  induction l with
  | nil => exact .inl h
  | cons a as ih =>
    rw [update] at h
    split at h
    · rcases mem_cons.mp h with rfl | h
      · exact .inr ⟨a, mem_cons_self, rfl⟩
      · exact .inl (mem_cons_of_mem _ h)
    rcases mem_cons.mp h with rfl | h
    · exact .inl mem_cons_self
    rcases ih h with hx | ⟨b, hb, hx⟩
    · exact .inl (mem_cons_of_mem _ hx)
    · exact .inr ⟨b, mem_cons_of_mem _ hb, hx⟩

lemma map_update {β : Type} {g : α → β} (hf : ∀ a, g (f a) = g a) (l : List α) : (update p f l).map g = l.map g := by
  induction l with
  | nil => rfl
  | cons a as ih =>
    rw [update]
    split
    · simp [hf]
    · simp [ih]

lemma update_congr (h : ∀ a ∈ l, p a = q a) : update p f l = update q f l := by
  induction l with
  | nil => rfl
  | cons a as ih =>
    rw [update, update, h a mem_cons_self, ih fun b hb => h b (mem_cons_of_mem _ hb)]

lemma update_congr_fun {g : α → α} (h : ∀ a, l.find? p = some a → f a = g a) : update p f l = update p g l := by
  induction l with
  | nil => rfl
  | cons a as ih =>
    rw [update, update]
    split
    · next ha => rw [h a (by simp [ha])]
    · next ha => rw [ih fun b hb => h b (by simpa [ha] using hb)]

lemma update_fixed (h : ∀ a, l.find? p = some a → f a = a) : update p f l = l := by
  induction l with
  | nil => rfl
  | cons a as ih =>
    rw [update]
    split
    · next ha => rw [h a (by simp [ha])]
    · next ha => rw [ih fun b hb => h b (by simpa [ha] using hb)]

/-- A list is another one with a single element replaced, by one that `R` relates to it. -/
inductive Replaced (R : α → α → Prop) : List α → List α → Prop
  | at {a a' : α} (before after : List α) (h : R a a') : Replaced R (before ++ a :: after) (before ++ a' :: after)

lemma replaced_update {R : α → α → Prop} (h : l.find? p = some a) (hr : R a (f a)) : Replaced R l (update p f l) := by
  induction l with
  | nil => cases h
  | cons b bs ih =>
    rw [update]
    by_cases hb : p b
    · obtain rfl : b = a := by simpa [hb] using h
      rw [if_pos hb]
      exact .at [] bs hr
    have hrs := ih (by simpa [hb] using h)
    rw [if_neg hb]
    generalize update p f bs = bs' at hrs ⊢
    obtain ⟨before, after, hx⟩ := hrs
    exact .at (b :: before) after hx

variable {κ : Type} [DecidableEq κ] {key : α → κ} {k : κ}

lemma named_of_find (h : l.find? (fun b => key b == k) = some a) : a ∈ l ∧ key a = k :=
  ⟨mem_of_find?_eq_some h, by simpa using find?_some h⟩

lemma find_named (key : α → κ) (ha : a ∈ l) (hk : key a = k) :
    ∃ b ∈ l, key b = k ∧ l.find? (fun b => key b == k) = some b := by
  cases hf : l.find? fun b => key b == k with
  | none =>
    have hno := find?_eq_none.mp hf a ha
    simp [hk] at hno
  | some b =>
    obtain ⟨hb, hnm⟩ := named_of_find hf
    exact ⟨b, hb, hnm, rfl⟩

lemma find_of_nodup (hn : (l.map key).Nodup) (ha : a ∈ l) : l.find? (fun b => key b == key a) = some a := by
  obtain ⟨b, hb, hnm, hfind⟩ := find_named key ha rfl
  rwa [inj_on_of_nodup_map hn hb ha hnm] at hfind

end Iec61850.FirstMatch
