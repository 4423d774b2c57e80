import Mathlib.Data.List.Chain

/-! Runs of a deterministic machine, and histories: lists that grow at the end. -/
namespace Iec61850.Runs
variable {σ α : Type} (step : σ → α → σ)

def Admitted (Meets : σ → α → Prop) : σ → List α → Prop
  | _, [] => True
  | s, x :: rest => Meets s x ∧ Admitted Meets (step s x) rest

instance Admitted.decidable (Meets : σ → α → Prop) [∀ s x, Decidable (Meets s x)] (s : σ) (xs : List α) :
    Decidable (Admitted step Meets s xs) :=
  match xs with
  | [] => .isTrue trivial
  | x :: rest =>
    have := Admitted.decidable Meets (step s x) rest
    inferInstanceAs (Decidable (_ ∧ _))

variable {step} {Meets : σ → α → Prop} {s : σ} {xs : List α}

lemma Admitted.of_prefix {part : List α} {x : α} (h : Admitted step Meets s xs) (hp : part ++ [x] <+: xs) :
    Meets (part.foldl step s) x := by
  obtain ⟨rest, rfl⟩ := hp
  induction part generalizing s with
  | nil => exact h.1
  | cons y part ih => exact ih h.2

lemma admitted_of_forall {P : α → Prop} (h : ∀ x ∈ xs, P x) : Admitted step (fun _ x => P x) s xs := by
  induction xs generalizing s with
  | nil => trivial
  | cons x rest ih => exact ⟨h x List.mem_cons_self, ih fun y hy => h y (List.mem_cons_of_mem x hy)⟩

lemma induction_admitted (Inv : σ → Prop) (hstep : ∀ s x, Inv s → Meets s x → Inv (step s x))
    (h : Inv s) (hm : Admitted step Meets s xs) : Inv (xs.foldl step s) := by
  induction xs generalizing s with
  | nil => exact h
  | cons x rest ih => exact ih (hstep s x h hm.1) hm.2

lemma forall_prefix_iff (Inv : σ → Prop) (hstep : ∀ s x, Inv s → (Inv (step s x) ↔ Meets s x))
    (h : Inv s) : (∀ part, part <+: xs → Inv (part.foldl step s)) ↔ Admitted step Meets s xs := by
  constructor
  · intro hall
    induction xs generalizing s with
    | nil => trivial
    | cons x rest ih =>
      have hnx : Inv (step s x) := hall [x] ⟨rest, rfl⟩
      refine ⟨(hstep s x h).mp hnx, ih hnx ?_⟩
      intro part hpart
      exact hall (x :: part) ((List.prefix_cons_inj x).mpr hpart)
  rintro hm part ⟨rest, rfl⟩
  induction part generalizing s with
  | nil => exact h
  | cons x part ih => exact ih ((hstep s x h).mpr hm.1) hm.2

lemma invariant (Inv : σ → Prop) (hstep : ∀ s x, Inv s → Inv (step s x)) (h : Inv s)
    (xs : List α) : Inv (xs.foldl step s) := by
  induction xs generalizing s with
  | nil => exact h
  | cons x rest ih => exact ih (hstep s x h)

end Iec61850.Runs

namespace Iec61850.History
open List

lemma split_append_one {β : Type} {l : List β} {x n : β} {before after : List β}
    (h : l ++ [x] = before ++ n :: after) : (∃ after', after = after' ++ [x] ∧ l = before ++ n :: after') ∨
      after = [] ∧ n = x ∧ before = l := by
  rcases eq_nil_or_concat after with rfl | ⟨after', y, rfl⟩
  · obtain ⟨hl, hx⟩ := append_inj' h rfl
    exact .inr ⟨rfl, by simpa using hx.symm, hl.symm⟩
  have hcat : before ++ n :: (after' ++ [y]) = (before ++ n :: after') ++ [y] := by simp
  rw [concat_eq_append, hcat] at h
  obtain ⟨hl, hx⟩ := append_inj' h rfl
  have hxy : x = y := by simpa using hx
  exact .inl ⟨after', by simp [hxy], hl⟩

/-- What every element of a history asks of the ones before it. -/
def Led {β : Type} (Asks : β → List β → Prop) (l : List β) : Prop :=
  ∀ before x after, l = before ++ x :: after → Asks x before

lemma led_nil {β : Type} {Asks : β → List β → Prop} : Led Asks [] := by
  intro before x after h
  simp at h

lemma Led.append_one {β : Type} {Asks : β → List β → Prop} {l : List β} {x : β} (h : Led Asks l)
    (hx : Asks x l) : Led Asks (l ++ [x]) := by
  intro before y after heq
  rcases split_append_one heq with ⟨after', -, hl⟩ | ⟨-, rfl, rfl⟩
  · exact h before y after' hl
  · exact hx

end Iec61850.History
