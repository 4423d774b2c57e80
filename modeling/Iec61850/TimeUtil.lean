import Iec61850.Text
import Mathlib.Data.Prod.Lex
import Mathlib.Tactic.IntervalCases

/-! Calendar arithmetic of the protocol timestamps. -/
namespace Iec61850
open Text

/-- A point in time: whole seconds from the Unix epoch and the nanoseconds after them. -/
structure SystemTime where
  secs : ℤ
  nanos : ℕ := 0
deriving DecidableEq

namespace TimeUtil

def binaryTimeEpochDays : ℤ := 5113

def unixParts (t : SystemTime) : ℤ × ℕ := (t.secs, t.nanos)

def fromUnix (secs : ℤ) (nanos : ℕ) : SystemTime :=
  { secs := secs + nanos / 1000000000, nanos := nanos % 1000000000 }

def civilFromDays (days : ℤ) : ℤ × ℕ × ℕ :=
  let z := days + 719468
  let era := (if 0 ≤ z then z else z - 146096).tdiv 146097
  let doe := z - era * 146097
  let yoe := (doe - doe / 1460 + doe / 36524 - doe / 146096) / 365
  let y := yoe + era * 400
  let doy := doe - (365 * yoe + yoe / 4 - yoe / 100)
  let mp := (5 * doy + 2) / 153
  let d := doy - (153 * mp + 2) / 5 + 1
  let m := if mp < 10 then mp + 3 else mp - 9
  (if m ≤ 2 then y + 1 else y, m.toNat, d.toNat)

/-- RFC 3339 text in UTC; the fraction is printed to the first exact of three precisions. -/
def formatRfc3339 (secs : ℤ) (nanos : ℕ) : String :=
  let rem := (secs % 86400).toNat
  let (y, mo, d) := civilFromDays (secs / 86400)
  let date := paddedInt 4 y ++ "-" ++ padded 2 mo ++ "-" ++ padded 2 d
  let time := padded 2 (rem / 3600) ++ ":" ++ padded 2 (rem % 3600 / 60) ++ ":" ++ padded 2 (rem % 60)
  let fraction :=
    if nanos = 0 then ""
    else if nanos % 1000000 = 0 then "." ++ padded 3 (nanos / 1000000)
    else if nanos % 1000 = 0 then "." ++ padded 6 (nanos / 1000)
    else "." ++ padded 9 nanos
  date ++ "T" ++ time ++ fraction ++ "Z"

def formatSystemTime (t : SystemTime) : String := formatRfc3339 (unixParts t).1 (unixParts t).2

end TimeUtil

namespace SystemTime

def key (t : SystemTime) : ℤ ×ₗ ℕ := toLex (t.secs, t.nanos)

lemma key_injective : Function.Injective key := by
  intro a b h
  cases a
  cases b
  cases h
  rfl

instance : LinearOrder SystemTime := LinearOrder.lift' key key_injective

lemma lt_iff {a b : SystemTime} : a < b ↔ a.secs < b.secs ∨ a.secs = b.secs ∧ a.nanos < b.nanos :=
  Prod.Lex.toLex_lt_toLex

end SystemTime

def TimeUtil.toMillis (t : SystemTime) : SystemTime :=
  fromUnix (unixParts t).1 ((unixParts t).2 / 1000000 * 1000000)

end Iec61850

namespace Iec61850.TimeUtil

def daysFromCivil (y : ℤ) (m d : ℕ) : ℤ :=
  let y := if m ≤ 2 then y - 1 else y
  let era := (if 0 ≤ y then y else y - 399).tdiv 400
  let yoe := y - era * 400
  let mp := (m + 9) % 12
  let doy := (153 * (mp : ℤ) + 2) / 5 + d - 1
  let doe := yoe * 365 + yoe / 4 - yoe / 100 + doy
  era * 146097 + doe - 719468

def dayNumber (date : ℤ × ℕ × ℕ) : ℤ := daysFromCivil date.1 date.2.1 date.2.2

/-- The calendar itself, by which the arithmetic is judged. -/
def Leap (y : ℤ) : Prop := y % 4 = 0 ∧ (y % 100 ≠ 0 ∨ y % 400 = 0)
deriving Decidable

def daysInMonth (y : ℤ) (m : ℕ) : ℕ :=
  if m = 2 then if Leap y then 29 else 28
  else if m = 4 ∨ m = 6 ∨ m = 9 ∨ m = 11 then 30
  else 31

def IsDate (date : ℤ × ℕ × ℕ) : Prop :=
  (1 ≤ date.2.1 ∧ date.2.1 ≤ 12) ∧ 1 ≤ date.2.2 ∧ date.2.2 ≤ daysInMonth date.1 date.2.1
deriving Decidable

def nextDate : ℤ × ℕ × ℕ → ℤ × ℕ × ℕ
  | (y, m, d) =>
    if d < daysInMonth y m then (y, m, d + 1) else if m < 12 then (y, m + 1, 1) else (y + 1, 1, 1)

/-- The day on which the year that begins in March of `y` starts, from the first of March of the year 0. -/
def yearStart (y : ℤ) : ℤ := 365 * y + y / 4 - y / 100 + y / 400

/-- The year that begins in March and has the month `m` of `y`. -/
def marchYear (y : ℤ) (m : ℕ) : ℤ := if m ≤ 2 then y - 1 else y

/-- The date of a day of such a year, counted from its first of March. -/
def marchDate (y doy : ℤ) : ℤ × ℕ × ℕ :=
  let mp := (5 * doy + 2) / 153
  let d := doy - (153 * mp + 2) / 5 + 1
  let m := if mp < 10 then mp + 3 else mp - 9
  (if m ≤ 2 then y + 1 else y, m.toNat, d.toNat)

def dayOfYear (m d : ℕ) : ℤ := (153 * ((m + 9) % 12 : ℕ) + 2) / 5 + d - 1

lemma tdiv_floor (z : ℤ) {n : ℤ} (hn : 0 < n) : (if 0 ≤ z then z else z - (n - 1)).tdiv n = z / n := by
  split
  · next h => exact Int.tdiv_eq_ediv_of_nonneg h
  next h =>
  have hneg : z - (n - 1) = -(n - 1 - z) := by omega
  rw [hneg, Int.neg_tdiv, Int.tdiv_eq_ediv_of_nonneg (by omega)]
  have hdiv := Int.emod_add_mul_ediv (n - 1 - z) n
  have hlo := Int.emod_nonneg (n - 1 - z) hn.ne'
  have hhi := Int.emod_lt_of_pos (n - 1 - z) hn
  have hz : n - 1 - (n - 1 - z) % n + n * -((n - 1 - z) / n) = z := by
    rw [Int.mul_neg]
    omega
  exact ((Int.ediv_emod_unique hn).mpr ⟨hz, by omega, by omega⟩).1.symm

lemma daysFromCivil_eq (y : ℤ) (m d : ℕ) :
    daysFromCivil y m d = yearStart (marchYear y m) + dayOfYear m d - 719468 := by
  have hera : (if 0 ≤ marchYear y m then marchYear y m else marchYear y m - 399).tdiv 400 = _ :=
    tdiv_floor (n := 400) (marchYear y m) (by decide)
  unfold daysFromCivil
  unfold marchYear at hera ⊢
  dsimp only
  rw [hera]
  unfold yearStart dayOfYear
  generalize (if m ≤ 2 then y - 1 else y) = y'
  omega

lemma yearStart_lt {a b : ℤ} (h : a < b) : yearStart (a + 1) ≤ yearStart b := by
  unfold yearStart
  omega

lemma yearStart_era (y era : ℤ) : yearStart (y + era * 400) = yearStart y + era * 146097 := by
  unfold yearStart
  omega

lemma yearStart_succ (y : ℤ) : yearStart (y + 1) = yearStart y + if Leap (y + 1) then 366 else 365 := by
  by_cases h : Leap (y + 1)
  · rw [if_pos h]
    unfold Leap at h
    unfold yearStart
    omega
  rw [if_neg h]
  unfold Leap at h
  unfold yearStart
  omega

/-- A day of an era by century, group of four years, year and day. Only the last year of a group has 366 days,
and the last of a century only if it is that of the era. -/
structure EraDay (doe c q t s : ℤ) : Prop where
  century : 0 ≤ c ∧ c ≤ 3
  group : 0 ≤ q ∧ q ≤ 24
  year : 0 ≤ t ∧ t ≤ 3
  day : 0 ≤ s ∧ (s ≤ 364 ∨ s = 365 ∧ t = 3 ∧ (q < 24 ∨ c = 3))
  sum : doe = 36524 * c + 1461 * q + 365 * t + s

lemma eraDay_exists {doe : ℤ} (h0 : 0 ≤ doe) (h1 : doe < 146097) : ∃ c q t s, EraDay doe c q t s := by
  let c := min (doe / 36524) 3
  let r := doe - 36524 * c
  let q := r / 1461
  let t := min (r % 1461 / 365) 3
  have hr : 0 ≤ r ∧ r ≤ 36524 ∧ (r = 36524 → c = 3) := by omega
  exact ⟨c, q, t, r - 1461 * q - 365 * t, by omega, by omega, by omega, by omega, by omega⟩

lemma EraDay.yoe {doe c q t s : ℤ} (h : EraDay doe c q t s) :
    (doe - doe / 1460 + doe / 36524 - doe / 146096) / 365 = 100 * c + 4 * q + t := by
  obtain ⟨hc, hq, ht, hs, hsum⟩ := h
  have hcentury : doe / 36524 - doe / 146096 = c := by
    have hr : 1461 * q + 365 * t + s ≤ 36523 ∨ c = 3 ∧ 1461 * q + 365 * t + s = 36524 := by omega
    rcases hr with hr | ⟨rfl, hr⟩ <;> omega
  have hgroup : doe / 1460 = 25 * c + q + (24 * c + q + 365 * t + s) / 1460 := by omega
  have hdays : doe - doe / 1460 + doe / 36524 - doe / 146096 =
      365 * (100 * c + 4 * q + t) + s - (24 * c + q + 365 * t + s) / 1460 := by omega
  rw [hdays]
  omega

lemma civilFromDays_eq (z : ℤ) : ∃ y, (yearStart y ≤ z + 719468 ∧ z + 719468 < yearStart (y + 1)) ∧
    civilFromDays z = marchDate y (z + 719468 - yearStart y) := by
  have hera : (if 0 ≤ z + 719468 then z + 719468 else z + 719468 - 146096).tdiv 146097 = _ :=
    tdiv_floor (n := 146097) (z + 719468) (by decide)
  dsimp only [civilFromDays]
  rw [hera]
  have hdoe : z + 719468 - (z + 719468) / 146097 * 146097 = (z + 719468) % 146097 := by omega
  rw [hdoe]
  obtain ⟨c, q, t, s, h⟩ := eraDay_exists (Int.emod_nonneg (z + 719468) (by decide : (146097 : ℤ) ≠ 0))
    (Int.emod_lt_of_pos (z + 719468) (by decide))
  rw [h.yoe]
  obtain ⟨hc, hq, ht, hs, hsum⟩ := h
  have hsta : yearStart (100 * c + 4 * q + t) = 36524 * c + 1461 * q + 365 * t := by
    unfold yearStart
    omega
  have hnx : yearStart (100 * c + 4 * q + t) + s < yearStart (100 * c + 4 * q + t + 1) := by
    rw [yearStart_succ]
    split
    · omega
    next hleap =>
      unfold Leap at hleap
      omega
  have hera' := yearStart_era (100 * c + 4 * q + t) ((z + 719468) / 146097)
  have hera'' := yearStart_era (100 * c + 4 * q + t + 1) ((z + 719468) / 146097)
  rw [add_right_comm] at hera''
  refine ⟨100 * c + 4 * q + t + (z + 719468) / 146097 * 400, by omega, ?_⟩
  have hdoy : (z + 719468) % 146097 - (365 * (100 * c + 4 * q + t) + (100 * c + 4 * q + t) / 4 -
      (100 * c + 4 * q + t) / 100) =
      z + 719468 - yearStart (100 * c + 4 * q + t + (z + 719468) / 146097 * 400) := by omega
  rw [hdoy]
  rfl

variable {y : ℤ} {date : ℤ × ℕ × ℕ}

lemma marchDate_spec {doy : ℤ} (h0 : 0 ≤ doy) (h1 : yearStart y + doy < yearStart (y + 1)) :
    IsDate (marchDate y doy) ∧ marchYear (marchDate y doy).1 (marchDate y doy).2.1 = y ∧
      dayOfYear (marchDate y doy).2.1 (marchDate y doy).2.2 = doy := by
  rw [yearStart_succ] at h1
  have hmp : 0 ≤ (5 * doy + 2) / 153 ∧ (5 * doy + 2) / 153 ≤ 11 := by split at h1 <;> omega
  dsimp only [marchDate]
  generalize hm : (5 * doy + 2) / 153 = mp at hmp ⊢
  obtain ⟨hlo, hhi⟩ := hmp
  -- The months one by one; the length of the last, February, is that of the year.
  by_cases hleap : Leap (y + 1) <;> simp only [hleap, if_true, if_false] at h1 <;> interval_cases mp <;>
    simp [IsDate, daysInMonth, marchYear, dayOfYear, hleap] <;> omega

lemma month_of_dayOfYear {m d : ℕ} (h : IsDate (y, m, d)) : (5 * dayOfYear m d + 2) / 153 = ((m + 9) % 12 : ℕ) := by
  obtain ⟨⟨hlo, hhi⟩, hd, hd'⟩ := h
  dsimp only at hlo hhi hd hd'
  unfold dayOfYear
  by_cases hleap : Leap y <;> interval_cases m <;> simp [daysInMonth, hleap] at hd' ⊢ <;> omega

lemma marchDate_dayOfYear {m d : ℕ} (h : IsDate (y, m, d)) :
    0 ≤ dayOfYear m d ∧ yearStart (marchYear y m) + dayOfYear m d < yearStart (marchYear y m + 1) ∧
      marchDate (marchYear y m) (dayOfYear m d) = (y, m, d) := by
  unfold marchDate
  rw [yearStart_succ, month_of_dayOfYear h]
  obtain ⟨⟨hlo, hhi⟩, hd, hd'⟩ := h
  dsimp only at hlo hhi hd hd' ⊢
  by_cases hleap : Leap y <;> interval_cases m <;>
    simp [daysInMonth, marchYear, dayOfYear, hleap] at hd' ⊢ <;> (refine ⟨?_, ?_⟩) <;> (try split) <;> omega

lemma civilFromDays_isDate (z : ℤ) : IsDate (civilFromDays z) := by
  obtain ⟨y, ⟨hlo, hhi⟩, hz⟩ := civilFromDays_eq z
  rw [hz]
  exact (marchDate_spec (by omega) (by omega)).1

lemma dayNumber_civilFromDays (z : ℤ) : dayNumber (civilFromDays z) = z := by
  obtain ⟨y, ⟨hlo, hhi⟩, hz⟩ := civilFromDays_eq z
  have hdoy : 0 ≤ z + 719468 - yearStart y := by omega
  obtain ⟨-, hyear, hday⟩ := marchDate_spec (y := y) hdoy (by omega)
  unfold dayNumber
  rw [hz, daysFromCivil_eq, hyear, hday]
  omega

lemma civilFromDays_dayNumber (h : IsDate date) : civilFromDays (dayNumber date) = date := by
  obtain ⟨y, m, d⟩ := date
  obtain ⟨hnonneg, hin, hdate⟩ := marchDate_dayOfYear h
  have hdays : dayNumber (y, m, d) = _ := daysFromCivil_eq y m d
  obtain ⟨y', ⟨hlo, hhi⟩, hz⟩ := civilFromDays_eq (dayNumber (y, m, d))
  -- Two years that hold the same day are one.
  have hyear : y' = marchYear y m := by
    apply Int.le_antisymm
    · by_contra hlt
      have := yearStart_lt (not_le.mp hlt)
      omega
    by_contra hlt
    have := yearStart_lt (not_le.mp hlt)
    omega
  have hday : dayNumber (y, m, d) + 719468 - yearStart y' = dayOfYear m d := by
    rw [hyear]
    omega
  rw [hz, hday, hyear, hdate]

lemma nextDate_spec (h : IsDate date) : IsDate (nextDate date) ∧ dayNumber (nextDate date) = dayNumber date + 1 := by
  obtain ⟨y, m, d⟩ := date
  obtain ⟨⟨hlo, hhi⟩, hd, hd'⟩ := h
  dsimp only at hlo hhi hd hd'
  have hmonth (y : ℤ) (m : ℕ) : 1 ≤ daysInMonth y m := by
    unfold daysInMonth
    split_ifs <;> omega
  dsimp only [nextDate, dayNumber]
  rw [daysFromCivil_eq y m d]
  split_ifs with hday hmon
  · refine ⟨⟨⟨hlo, hhi⟩, by simp, hday⟩, ?_⟩
    rw [daysFromCivil_eq]
    dsimp only [dayOfYear]
    omega
  · -- The last day of a month but December.
    refine ⟨⟨⟨by simp, hmon⟩, le_rfl, hmonth _ _⟩, ?_⟩
    obtain rfl : d = daysInMonth y m := by omega
    have hyear := yearStart_succ (y - 1)
    rw [sub_add_cancel] at hyear
    rw [daysFromCivil_eq]
    by_cases hleap : Leap y <;> interval_cases m <;>
      simp [daysInMonth, marchYear, dayOfYear, hleap] at hyear ⊢ <;> omega
  refine ⟨⟨⟨le_rfl, by simp⟩, le_rfl, hmonth _ _⟩, ?_⟩
  obtain rfl : m = 12 := by omega
  have hls : daysInMonth y 12 = 31 := rfl
  obtain rfl : d = 31 := by omega
  rw [daysFromCivil_eq]
  simp [marchYear, dayOfYear]
  omega

/-- Day numbers and dates correspond, and a day later is a date later. -/
theorem calendar_exact : (∀ z, IsDate (civilFromDays z) ∧ dayNumber (civilFromDays z) = z ∧
      civilFromDays (z + 1) = nextDate (civilFromDays z)) ∧
    ∀ date, IsDate date → civilFromDays (dayNumber date) = date := by
  refine ⟨?_, fun date => civilFromDays_dayNumber⟩
  intro z
  have hdate := civilFromDays_isDate z
  have hdays := dayNumber_civilFromDays z
  obtain ⟨hvalid, hnx⟩ := nextDate_spec hdate
  have hbk := civilFromDays_dayNumber hvalid
  rw [hnx, hdays] at hbk
  exact ⟨hdate, hdays, hbk⟩

theorem calendar_exact_leap_day : IsDate (2000, 2, 29) ∧ civilFromDays (dayNumber (2000, 2, 29)) = (2000, 2, 29) :=
  ⟨by decide, calendar_exact.2 (2000, 2, 29) (by decide)⟩

end Iec61850.TimeUtil
