import Iec61850.ReportCodec

/-! How well `UtcTime` and `BinaryTime` keep an instant. -/
namespace Iec61850
open Mms TimeUtil Value SystemTime

lemma SystemTime.le_iff {a b : SystemTime} : a ≤ b ↔ a.secs < b.secs ∨ a.secs = b.secs ∧ a.nanos ≤ b.nanos :=
  Prod.Lex.toLex_le_toLex

def SystemTime.unixNanos (t : SystemTime) : ℤ := t.secs * 1000000000 + t.nanos

namespace Mms

def Value.utcTimeParts (secs : ℤ) (nanos : ℕ) (q : UInt8) : UtcOctets :=
  let frac := nanos * 2 ^ 24 / 1000000000
  let s := (secs % 2 ^ 32).toNat
  ⟨[UInt8.ofNat (s / 2 ^ 24), UInt8.ofNat (s / 2 ^ 16), UInt8.ofNat (s / 2 ^ 8), UInt8.ofNat s,
    UInt8.ofNat (frac / 2 ^ 16), UInt8.ofNat (frac / 2 ^ 8), UInt8.ofNat frac, q], rfl⟩

def Value.utcTimeOf (t : SystemTime) (q : UInt8) : Value :=
  utcTime (utcTimeParts (unixParts t).1 (unixParts t).2 q)

/-- The value built anew from what a value says, as whoever passes a timestamp on does. -/
def Value.restamp (v : Value) : Value := v.time.elim v fun t => utcTimeOf t v.timeQuality

namespace UtcOctets

def octet (b : UtcOctets) (i : ℕ) : ℕ := (b.octets.getD i 0).toNat

def seconds (b : UtcOctets) : ℕ := ((b.octet 0 * 256 + b.octet 1) * 256 + b.octet 2) * 256 + b.octet 3

/-- Of a second, in units of `2 ^ -24`. -/
def fraction (b : UtcOctets) : ℕ := (b.octet 4 * 256 + b.octet 5) * 256 + b.octet 6

lemma octet_lt (b : UtcOctets) (i : ℕ) : b.octet i < 256 := UInt8.toNat_lt _

lemma fraction_lt (b : UtcOctets) : b.fraction < 2 ^ 24 := by
  have h4 := b.octet_lt 4
  have h5 := b.octet_lt 5
  have h6 := b.octet_lt 6
  unfold fraction
  omega

variable {b d : UtcOctets}

lemma ext_octet (h : ∀ i < 8, b.octet i = d.octet i) : b = d := by
  have hoct : b.octets = d.octets := by
    apply List.ext_getElem (b.length_eq.trans d.length_eq.symm)
    intro i hb hd
    have hi := h i (b.length_eq ▸ hb)
    apply UInt8.toNat_inj.mp
    simpa [octet, hb, hd] using hi
  cases b
  cases d
  cases hoct
  rfl

/-- The eight octets are the seconds, the fraction and the quality. -/
theorem ext_fields (hs : b.seconds = d.seconds) (hf : b.fraction = d.fraction)
    (hq : b.octet 7 = d.octet 7) : b = d := by
  apply ext_octet
  intro i hi
  have hlt (i : ℕ) : b.octet i < 256 ∧ d.octet i < 256 := ⟨octet_lt b i, octet_lt d i⟩
  have h1 := hlt 1
  have h2 := hlt 2
  have h3 := hlt 3
  have h5 := hlt 5
  have h6 := hlt 6
  unfold seconds at hs
  unfold fraction at hf
  interval_cases i
  all_goals omega

variable (secs : ℤ) {nanos : ℕ} (q : UInt8)

lemma seconds_utcTimeParts : (utcTimeParts secs nanos q).seconds = (secs % 2 ^ 32).toNat := by
  apply octets_compose
  omega

lemma fraction_utcTimeParts (h : nanos < 1000000000) :
    (utcTimeParts secs nanos q).fraction = nanos * 2 ^ 24 / 1000000000 := by
  have hlt : nanos * 2 ^ 24 / 1000000000 < 2 ^ 24 := by omega
  have hcompose := octets_compose (Nat.lt_trans hlt (by decide))
  rw [Nat.div_eq_of_lt hlt, UInt8.toNat_ofNat', Nat.zero_mod, Nat.zero_mul, Nat.zero_add] at hcompose
  exact hcompose

end UtcOctets

open UtcOctets

lemma time_utcTime (b : UtcOctets) : (utcTime b).time = some ⟨b.seconds, b.fraction * 1000000000 / 2 ^ 24⟩ := by
  have hlt := b.fraction_lt
  have htime : (utcTime b).time = some (fromUnix b.seconds (b.fraction * 1000000000 / 2 ^ 24)) := rfl
  rw [htime, fromUnix, Option.some.injEq, SystemTime.mk.injEq]
  omega

lemma time_utcTimeOf {t : SystemTime} (ht : t.nanos < 1000000000) (q : UInt8) : (utcTimeOf t q).time =
      some ⟨t.secs % 2 ^ 32, t.nanos * 2 ^ 24 / 1000000000 * 1000000000 / 2 ^ 24⟩ := by
  rw [utcTimeOf, time_utcTime, unixParts, seconds_utcTimeParts, fraction_utcTimeParts _ _ ht, Option.some.injEq,
    SystemTime.mk.injEq]
  omega

lemma restamp_utcTime (b : UtcOctets) : restamp (utcTime b) =
    utcTime (utcTimeParts b.seconds (b.fraction * 1000000000 / 2 ^ 24) (b.octets.getD 7 0)) := by
  rw [restamp, time_utcTime]
  rfl

lemma fraction_of_nanos_iff (f : ℕ) : f * 1000000000 / 2 ^ 24 * 2 ^ 24 / 1000000000 = f ↔ 2 ^ 15 ∣ f := by
  have hle : f * 1000000000 / 2 ^ 24 * 2 ^ 24 / 1000000000 ≤ f := by
    apply Nat.div_le_of_le_mul
    rw [Nat.mul_comm 1000000000]
    exact Nat.div_mul_le_self _ _
  calc f * 1000000000 / 2 ^ 24 * 2 ^ 24 / 1000000000 = f
    _ ↔ f ≤ f * 1000000000 / 2 ^ 24 * 2 ^ 24 / 1000000000 := ⟨ge_of_eq, hle.antisymm⟩
    _ ↔ f * 1000000000 ≤ f * 1000000000 / 2 ^ 24 * 2 ^ 24 := Nat.le_div_iff_mul_le (by decide)
    _ ↔ 2 ^ 24 ∣ f * 1000000000 := by
      rw [Nat.dvd_iff_div_mul_eq]
      exact ⟨(Nat.div_mul_le_self _ _).antisymm, ge_of_eq⟩
    -- A thousand million has nine factors of two.
    _ ↔ 2 ^ 15 * 2 ^ 9 ∣ f * 1953125 * 2 ^ 9 := by
      rw [Nat.mul_assoc, show 1953125 * 2 ^ 9 = 1000000000 by decide, ← Nat.pow_add]
    _ ↔ 2 ^ 15 ∣ f := by
      rw [Nat.mul_dvd_mul_iff_right (by decide)]
      exact ⟨Nat.Coprime.dvd_of_dvd_mul_right (by decide), fun h => h.mul_right _⟩

/-- Passing a timestamp on any number of times leaves it alone exactly when its fraction is whole nanoseconds.
-/
theorem restamp_iterate_iff (b : UtcOctets) : (∀ n, restamp^[n] (utcTime b) = utcTime b) ↔ 2 ^ 15 ∣ b.fraction := by
  have hlt := b.fraction_lt
  have hnanos : b.fraction * 1000000000 / 2 ^ 24 < 1000000000 := by omega
  have hfraction := fraction_utcTimeParts b.seconds (b.octets.getD 7 0) hnanos
  constructor
  · intro h
    have hone : restamp (utcTime b) = utcTime b := h 1
    rw [restamp_utcTime, Value.utcTime.injEq] at hone
    rw [hone] at hfraction
    exact (fraction_of_nanos_iff _).mp hfraction.symm
  intro hdvd n
  apply Function.iterate_fixed
  rw [restamp_utcTime]
  congr 1
  apply ext_fields
  · rw [seconds_utcTimeParts]
    have hsecs : b.seconds < 2 ^ 32 := by
      have h0 := b.octet_lt 0
      have h1 := b.octet_lt 1
      have h2 := b.octet_lt 2
      have h3 := b.octet_lt 3
      unfold seconds
      omega
    omega
  · exact hfraction.trans ((fraction_of_nanos_iff _).mpr hdvd)
  · rfl

/-- The smallest fraction is 59 nanoseconds, which are no fraction. -/
theorem smallest_fraction_lost :
    restamp (utcTime ⟨[0, 0, 0, 0, 0, 0, 1, 0], rfl⟩) ≠ utcTime ⟨[0, 0, 0, 0, 0, 0, 1, 0], rfl⟩ := by
  intro h
  have hoct := congrArg Value.bytes h
  revert hoct
  decide

theorem time_encodings_tight {a b : SystemTime} (ha : a.nanos < 1000000000) (hb : b.nanos < 1000000000)
    (hab : a ≤ b) (hfrom : 0 ≤ a.secs) (hto : b.secs < 2 ^ 32) (q q' : UInt8) :
    (∃ x y, (utcTimeOf a q).time = some x ∧ (utcTimeOf b q').time = some y ∧
      x ≤ a ∧ a.unixNanos - x.unixNanos < 120 ∧ x ≤ y) ∧
    ∀ t : SystemTime, t.nanos < 1000000000 → InEra t → (binaryTimeOf t).time = some (toMillis t) := by
  rw [le_iff] at hab
  refine ⟨⟨_, _, time_utcTimeOf ha q, time_utcTimeOf hb q', ?_, ?_, ?_⟩, ?_⟩
  · rw [le_iff]
    dsimp only
    omega
  · dsimp only [unixNanos]
    omega
  · rw [le_iff]
    dsimp only
    omega
  · intro t ht hera
    rw [← (wireTime_eq_toMillis_iff ht).mpr hera]
    exact time_binaryTimeBytes t

theorem time_encodings_tight_at : ∃ x y, (utcTimeOf ⟨7, 999999999⟩ 0).time = some x ∧
    (utcTimeOf ⟨8, 1⟩ 0).time = some y ∧ x ≤ ⟨7, 999999999⟩ ∧ x ≤ y := by
  obtain ⟨x, y, hx, hy, hle, -, hxy⟩ := (time_encodings_tight (a := ⟨7, 999999999⟩) (b := ⟨8, 1⟩) (by decide)
    (by decide) (by decide) (by decide) (by decide) 0 0).1
  exact ⟨x, y, hx, hy, hle, hxy⟩

end Mms
end Iec61850
