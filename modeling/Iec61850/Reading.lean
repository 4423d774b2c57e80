import Mathlib.Data.List.Nodup
import Mathlib.Data.List.Infix

/-! Lists fetched in pages, a log that loses its oldest entries, and reads of parts of a changing state. -/
namespace Iec61850.Paging
open List
variable {α γ ε : Type}

/-- All pages together. `fetch n c` is page `n`, fetched at the place `c`, and whether more follow; `next` is
the place after an element. No result when `fuel` pages are not enough. -/
def collect (fetch : ℕ → γ → Except ε (List α × Bool)) (next : α → γ) :
    (fuel n : ℕ) → (got : List α) → (place : γ) → Option (Except ε (List α))
  | 0, _, _, _ => none
  | fuel + 1, n, got, place =>
    match fetch n place with
    | .error e => some (.error e)
    | .ok (batch, more) =>
      match more, batch.getLast? with
      | true, some last => collect fetch next fuel (n + 1) (got ++ batch) (next last)
      | _, _ => some (.ok (got ++ batch))

variable {fetch : ℕ → γ → Except ε (List α × Bool)} {next : α → γ} {fuel n : ℕ} {got : List α} {place : γ}

lemma collect_error {e : ε} (h : fetch n place = .error e) :
    collect fetch next (fuel + 1) n got place = some (.error e) := by
  rw [collect, h]

variable {batch : List α}

lemma collect_last (h : fetch n place = .ok (batch, false)) :
    collect fetch next (fuel + 1) n got place = some (.ok (got ++ batch)) := by
  rw [collect, h]

lemma collect_more {last : α} (h : fetch n place = .ok (batch ++ [last], true)) :
    collect fetch next (fuel + 1) n got place =
      collect fetch next fuel (n + 1) (got ++ (batch ++ [last])) (next last) := by
  rw [collect, h]
  dsimp only
  rw [getLast?_concat]

lemma collect_list {Fails : ε → Prop} {xs : List α} (Left : List α → List α → γ → Prop)
    (hpage : ∀ n got left place, got ++ left = xs → Left got left place →
      (∃ e, fetch n place = .error e ∧ Fails e) ∨ fetch n place = .ok (left, false) ∨
        ∃ batch last rest, fetch n place = .ok (batch ++ [last], true) ∧ left = batch ++ [last] ++ rest ∧
          Left (got ++ (batch ++ [last])) rest (next last))
    {left : List α} (hxs : got ++ left = xs) (hleft : Left got left place) (hfuel : left.length < fuel) :
    (∃ e, collect fetch next fuel n got place = some (.error e) ∧ Fails e) ∨
      collect fetch next fuel n got place = some (.ok xs) := by
  induction fuel generalizing n got left place with
  | zero => omega
  | succ fuel ih =>
    obtain ⟨e, hfet, he⟩ | hfet | ⟨batch, last, rest, hfet, hcut, hrs⟩ := hpage n got left place hxs hleft
    · exact .inl ⟨e, collect_error hfet, he⟩
    · right
      rw [collect_last hfet, hxs]
    rw [collect_more hfet]
    have hsh : rest.length < fuel := by
      rw [hcut, length_append, length_append, length_singleton] at hfuel
      omega
    apply ih _ hrs hsh
    rw [← hxs, hcut]
    simp

/-- Page `n` is fetched at a place. -/
inductive Visited (fetch : ℕ → γ → Except ε (List α × Bool)) (next : α → γ) (first : γ) : ℕ → γ → Prop
  | first : Visited fetch next first 0 first
  | next {n : ℕ} {place : γ} {batch : List α} {last : α} (hpl : Visited fetch next first n place)
    (hfet : fetch n place = .ok (batch ++ [last], true)) : Visited fetch next first (n + 1) (next last)

lemma collect_rule {first : γ} {all : List α} (I : ℕ → List α → γ → Prop)
    (hstep : ∀ n got place batch last, Visited fetch next first n place → I n got place →
      fetch n place = .ok (batch ++ [last], true) → I (n + 1) (got ++ (batch ++ [last])) (next last))
    (hI : I n got place) (hpl : Visited fetch next first n place)
    (hall : collect fetch next fuel n got place = some (.ok all)) :
    ∃ n got place batch more, I n got place ∧ Visited fetch next first n place ∧
      fetch n place = .ok (batch, more) ∧ (more → batch = []) ∧ all = got ++ batch := by
  induction fuel generalizing n got place with
  | zero => cases hall
  | succ fuel ih =>
    rw [collect] at hall
    rcases hfet : fetch n place with e | page
    · rw [hfet] at hall
      cases hall
    obtain ⟨batch, more⟩ := page
    rw [hfet] at hall
    dsimp only at hall
    rcases eq_nil_or_concat batch with rfl | ⟨batch, last, rfl⟩
    · rw [getLast?_nil] at hall
      refine ⟨n, got, place, [], more, hI, hpl, hfet, fun _ => rfl, ?_⟩
      cases more <;> exact (Except.ok.inj (Option.some.inj hall)).symm
    rw [concat_eq_append] at hfet hall
    cases more with
    | false =>
      refine ⟨n, got, place, batch ++ [last], false, hI, hpl, hfet, nofun, ?_⟩
      exact (Except.ok.inj (Option.some.inj hall)).symm
    | true =>
      rw [getLast?_concat] at hall
      exact ih (hstep n got place batch last hpl hI hfet) (hpl.next hfet) hall

end Iec61850.Paging

namespace Iec61850.RollingLog
open List
variable {α : Type}

/-- Before read `n`: `H n` are the entries ever logged and `L k` those the log held at read `k`. Reading has
passed some and got those that are wanted and that the log held at every read. -/
structure Reached (H L : ℕ → List α) (Want : α → Prop) (n : ℕ) (got passed since : List α) : Prop where
  split : H n = passed ++ since
  sublist : got.Sublist passed
  complete : ∀ x ∈ passed, (∀ k < n, x ∈ L k) → Want x → x ∈ got

variable {H L : ℕ → List α} {Want : α → Prop} {n : ℕ} {got passed since skipped page more : List α}

lemma reached_zero (H L : ℕ → List α) (Want : α → Prop) : Reached H L Want 0 [] [] (H 0) :=
  ⟨rfl, List.Sublist.refl [], nofun⟩

section
variable (h : Reached H L Want n got passed since)
include h

lemma Reached.next (hgrows : H n <+: H (n + 1))
    (hsince : since = skipped ++ (page ++ more)) (hskip : ∀ x ∈ skipped, x ∈ L n → ¬ Want x) :
    ∃ new, Reached H L Want (n + 1) (got ++ page) (passed ++ (skipped ++ page)) (more ++ new) := by
  obtain ⟨new, hnew⟩ := hgrows
  refine ⟨new, ?_, ?_, ?_⟩
  · rw [← hnew, h.split, hsince]
    simp
  · exact h.sublist.append (sublist_append_right skipped page)
  intro x hx hsty hwant
  rcases mem_append.mp hx with hx | hx
  · have hgot := h.complete x hx (fun k hk => hsty k (by omega)) hwant
    exact mem_append_left page hgot
  rcases mem_append.mp hx with hx | hx
  · exact absurd hwant (hskip x hx (hsty n (by omega)))
  · exact mem_append_right got hx

lemma Reached.finish (hheld : L n <:+ H n)
    (hsince : since = skipped ++ (page ++ more)) (hskip : ∀ x ∈ skipped, x ∈ L n → ¬ Want x)
    (hmo : ∀ x ∈ more, ¬ Want x) :
    (got ++ page).Sublist (H n) ∧ ∀ x, (∀ k ≤ n, x ∈ L k) → Want x → x ∈ got ++ page := by
  have hsp : H n = passed ++ (skipped ++ (page ++ more)) := by rw [h.split, hsince]
  constructor
  · rw [hsp]
    apply h.sublist.append
    exact (sublist_append_left page more).trans (sublist_append_right skipped _)
  intro x hsty hwant
  have hx : x ∈ H n := hheld.subset (hsty n le_rfl)
  rw [hsp, mem_append, mem_append, mem_append] at hx
  rcases hx with hx | hx | hx | hx
  · have hgot := h.complete x hx (fun k hk => hsty k (by omega)) hwant
    exact mem_append_left page hgot
  · exact absurd hwant (hskip x hx (hsty n le_rfl))
  · exact mem_append_right got hx
  · exact absurd hwant (hmo x hx)

end

lemma held_since {whole held before : List α} {last : α} (hheld : held <:+ whole)
    (hsp : whole = before ++ last :: since) (hnd : whole.Nodup) :
    (∃ front, held = front ++ last :: since) ∨
      last ∉ held ∧ ∃ skipped, since = skipped ++ held ∧ ∀ x ∈ skipped, x ∉ held := by
  subst hsp
  rw [nodup_append, nodup_cons] at hnd
  obtain ⟨-, ⟨hls, hdist⟩, -⟩ := hnd
  -- Of two suffixes of one list, one ends the other.
  have hsince : last :: since <:+ before ++ last :: since := suffix_append _ _
  rcases suffix_or_suffix_of_suffix hheld hsince with hin | ⟨front, hfront⟩
  · rcases suffix_cons_iff.mp hin with rfl | ⟨skipped, hskip⟩
    · exact .inl ⟨[], rfl⟩
    rw [← hskip, nodup_append] at hdist
    refine .inr ⟨?_, skipped, hskip.symm, ?_⟩
    · intro hm
      apply hls
      rw [← hskip]
      exact mem_append_right skipped hm
    · intro x hx hm
      exact hdist.2.2 x hx x hm rfl
  · exact .inl ⟨front, hfront.symm⟩

end Iec61850.RollingLog

namespace Iec61850.Snapshot
open List

/-- A read: the parts it asks for, what it has got, and the states there have been since it began. -/
structure Reading (σ τ ε : Type) where
  parts : List τ
  results : List ε := []
  states : List σ

variable {σ τ ε : Type} {Shows : σ → τ → ε → Prop} {s s' : σ} {r : Reading σ τ ε} {t : τ} {e : ε}

namespace Reading

def next? (r : Reading σ τ ε) : Option τ := r.parts[r.results.length]?

def seen (r : Reading σ τ ε) : List τ := r.parts.take r.results.length

def add (r : Reading σ τ ε) (e : ε) : Reading σ τ ε := { r with results := r.results ++ [e] }

def observe (r : Reading σ τ ε) (s : σ) : Reading σ τ ε := { r with states := s :: r.states }

/-- What was read belongs to one of the states. -/
def Whole (Shows : σ → τ → ε → Prop) (r : Reading σ τ ε) : Prop :=
  ∃ s ∈ r.states, List.Forall₂ (Shows s) r.parts r.results

instance Whole.decidable (Shows : σ → τ → ε → Prop) [∀ s t e, Decidable (Shows s t e)] (r : Reading σ τ ε) :
    Decidable (r.Whole Shows) := List.decidableBEx _ _

/-- What was read so far belongs to the state that is there now, or the read is over and whole. -/
def Current (Shows : σ → τ → ε → Prop) (s : σ) (r : Reading σ τ ε) : Prop :=
  s ∈ r.states ∧ (List.Forall₂ (Shows s) r.seen r.results ∨ (r.next? = none ∧ r.Whole Shows))

lemma current_begin (parts : List τ) : Current Shows s { parts := parts, states := [s] } :=
  ⟨mem_singleton.mpr rfl, .inl .nil⟩

section
variable (h : r.Current Shows s)
include h

lemma Current.add (ht : r.next? = some t) (he : Shows s t e) : (r.add e).Current Shows s := by
  refine ⟨h.1, .inl ?_⟩
  rcases h.2 with hseen | ⟨hno, -⟩
  · have hps : (r.add e).seen = r.seen ++ [t] := by
      change r.parts.take (r.results ++ [e]).length = r.parts.take r.results.length ++ [t]
      rw [length_append, length_singleton, take_add_one]
      congr 1
      rw [show r.parts[r.results.length]? = some t from ht]
      rfl
    rw [hps]
    exact rel_append hseen (.cons he .nil)
  · rw [hno] at ht
    cases ht

lemma Current.observe (hsm : ∀ t ∈ r.seen, (r.next?).isSome → ∀ e, Shows s t e → Shows s' t e) :
    (r.observe s').Current Shows s' := by
  refine ⟨mem_cons_self, ?_⟩
  cases hnx : r.next? with
  | some t =>
    left
    rcases h.2 with hseen | ⟨hno, -⟩
    · rw [hnx] at hsm
      change List.Forall₂ (Shows s') r.seen r.results
      rw [forall₂_iff_get] at hseen ⊢
      refine ⟨hseen.1, fun i hi hi' => ?_⟩
      exact hsm _ (get_mem _ _) rfl _ (hseen.2 i hi hi')
    · rw [hnx] at hno
      cases hno
  | none =>
    right
    refine ⟨hnx, ?_⟩
    rcases h.2 with hseen | ⟨-, s0, hs0, hwhole⟩
    · have hps : r.seen = r.parts := take_of_length_le (getElem?_eq_none_iff.mp hnx)
      rw [hps] at hseen
      exact ⟨s, mem_cons_of_mem _ h.1, hseen⟩
    · exact ⟨s0, mem_cons_of_mem _ hs0, hwhole⟩

lemma Current.whole (hnx : r.next? = none) : r.Whole Shows := by
  rcases h.2 with hseen | ⟨-, hwhole⟩
  · have hps : r.seen = r.parts := take_of_length_le (getElem?_eq_none_iff.mp hnx)
    rw [hps] at hseen
    exact ⟨s, h.1, hseen⟩
  · exact hwhole

end

end Reading
end Iec61850.Snapshot
