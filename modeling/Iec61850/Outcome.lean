import Mathlib.Data.List.Basic

/-! Computations that return a value, return an error, or abort the thread, and those over a state, kept when
they fail. -/
namespace Iec61850

inductive Outcome (ε α : Type) where
  | ok (a : α)
  | error (e : ε)
  | panic
deriving DecidableEq

namespace Outcome
variable {ε α β : Type}

def bind : Outcome ε α → (α → Outcome ε β) → Outcome ε β
  | ok a, f => f a
  | error e, _ => error e
  | panic, _ => panic

instance : Monad (Outcome ε) where
  pure := ok
  bind := bind

@[simp] lemma pure_eq (a : α) : (pure a : Outcome ε α) = ok a := rfl
@[simp] lemma ok_bind (a : α) (f : α → Outcome ε β) : (ok a >>= f) = f a := rfl
@[simp] lemma error_bind (e : ε) (f : α → Outcome ε β) : (error e >>= f) = error e := rfl
@[simp] lemma panic_bind (f : α → Outcome ε β) : ((panic : Outcome ε α) >>= f) = panic := rfl

variable {f : α → Outcome ε β} {x : Outcome ε α} {b : List α}

lemma bind_eq_ok {b : β} : (x >>= f) = ok b ↔ ∃ a, x = ok a ∧ f a = ok b := by
  cases x <;> simp

lemma bind_eq_panic : (x >>= f) = panic ↔ x = panic ∨ ∃ a, x = ok a ∧ f a = panic := by
  cases x <;> simp

def mapError {ε' : Type} (g : ε → ε') : Outcome ε α → Outcome ε' α
  | ok a => ok a
  | error e => error (g e)
  | panic => panic

@[simp] lemma mapError_eq_panic {ε' : Type} (g : ε → ε') (x : Outcome ε α) : x.mapError g = panic ↔ x = panic := by
  cases x <;> simp [mapError]

def sub (a b : ℕ) : Outcome ε ℕ := if b ≤ a then ok (a - b) else panic

def slice (b : List α) (i j : ℕ) : Outcome ε (List α) :=
  if i ≤ j ∧ j ≤ b.length then ok ((b.drop i).take (j - i)) else panic

def index (b : List α) (i : ℕ) : Outcome ε α :=
  match b[i]? with
  | some a => ok a
  | none => panic

lemma sub_of_le {a b : ℕ} (h : b ≤ a) : (sub a b : Outcome ε ℕ) = ok (a - b) := if_pos h

lemma slice_of_le {i j : ℕ} (hij : i ≤ j) (hj : j ≤ b.length) :
    (slice b i j : Outcome ε (List α)) = ok ((b.drop i).take (j - i)) := if_pos ⟨hij, hj⟩

lemma index_of_lt {i : ℕ} (h : i < b.length) : (index b i : Outcome ε α) = ok b[i] := by
  simp [index, h]

end Outcome

def Stateful (σ ε α : Type) : Type := σ → Outcome ε α × σ

namespace Stateful
variable {σ ε α β : Type}

def bind (m : Stateful σ ε α) (f : α → Stateful σ ε β) : Stateful σ ε β := fun s =>
  match m s with
  | (.ok a, s') => f a s'
  | (.error e, s') => (.error e, s')
  | (.panic, s') => (.panic, s')

instance : Monad (Stateful σ ε) where
  pure a := fun s => (.ok a, s)
  bind := bind

def get : Stateful σ ε σ := fun s => (.ok s, s)
def modify (f : σ → σ) : Stateful σ ε Unit := fun s => (.ok (), f s)
def fail (e : ε) : Stateful σ ε α := fun s => (.error e, s)
def abort : Stateful σ ε α := fun s => (.panic, s)

def lift (x : Outcome ε α) : Stateful σ ε α := fun s => (x, s)

/-- From a state, a computation returns with `Q` or fails with `E`. It does not abort. -/
def Returns (m : Stateful σ ε α) (s : σ) (Q : α → σ → Prop) (E : ε → σ → Prop) : Prop :=
  match m s with
  | (.ok a, s') => Q a s'
  | (.error e, s') => E e s'
  | (.panic, _) => False

variable {m : Stateful σ ε α} {f : α → Stateful σ ε β} {s : σ} {Q : β → σ → Prop} {E E' : ε → σ → Prop}

lemma returns_pure {b : β} : (pure b : Stateful σ ε β).Returns s Q E ↔ Q b s := Iff.rfl

lemma returns_fail {e : ε} : (fail e : Stateful σ ε β).Returns s Q E ↔ E e s := Iff.rfl

lemma returns_get_bind {f : σ → Stateful σ ε β} : (get >>= f).Returns s Q E ↔ (f s).Returns s Q E := Iff.rfl

lemma returns_lift_bind {a : α} {x : Outcome ε α} (hx : x = .ok a) :
    (lift x >>= f).Returns s Q E ↔ (f a).Returns s Q E := by
  subst hx
  rfl

lemma Returns.bind {P : α → σ → Prop} (hm : m.Returns s P E')
    (hf : ∀ a s', P a s' → (f a).Returns s' Q E) (he : ∀ e s', E' e s' → E e s') : (m >>= f).Returns s Q E := by
  show (Stateful.bind m f).Returns s Q E
  unfold Returns at hm ⊢
  unfold Stateful.bind
  split at hm
  · exact hf _ _ hm
  · exact he _ _ hm
  · exact hm.elim

lemma Returns.mono {P : β → σ → Prop} {m : Stateful σ ε β} (hm : m.Returns s P E')
    (hq : ∀ b s', P b s' → Q b s') (he : ∀ e s', E' e s' → E e s') : m.Returns s Q E := by
  unfold Returns at hm ⊢
  split at hm
  · exact hq _ _ hm
  · exact he _ _ hm
  · exact hm.elim

lemma Returns.cases {m : Stateful σ ε β} (hm : m.Returns s Q E) :
    (∃ b, (m s).1 = .ok b ∧ Q b (m s).2) ∨ ∃ e, (m s).1 = .error e ∧ E e (m s).2 := by
  unfold Returns at hm
  split at hm
  · next b s' hs => exact .inl ⟨b, by rw [hs], by rw [hs]; exact hm⟩
  · next e s' hs => exact .inr ⟨e, by rw [hs], by rw [hs]; exact hm⟩
  · exact hm.elim

end Stateful

end Iec61850
