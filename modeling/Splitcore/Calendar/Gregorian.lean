import Mathlib.Data.Int.Notation
import Mathlib.Tactic.Common

/-!
The proleptic Gregorian calendar, over days counted from 1 January 1970.

The first day of a year is given by a formula, and the year of a day is the last that has begun. Months
are counted from 0, the days of a month from 1. Going back from a year, a month and a day of the month,
a month out of range carries into the year, and a day out of range into the next months.
-/

namespace Splitcore.Calendar

/-! ### Years -/

def isLeap (y : ℤ) : Bool := y % 4 == 0 && (y % 100 != 0 || y % 400 == 0)

/-- The day that the year begins on. -/
def dayFromYear (y : ℤ) : ℤ :=
  365 * (y - 1970) + (y - 1969) / 4 - (y - 1901) / 100 + (y - 1601) / 400

/-- By the cycles of 400, 100, 4 years and one year, from 1601 on. The last century and the last year
of a cycle are the longer ones. -/
def yearFromDay (d : ℤ) : ℤ :=
  let d₁ := d - dayFromYear 1601
  let d₂ := d₁ % 146097
  let century := min (d₂ / 36524) 3
  let d₃ := d₂ - 36524 * century
  let d₄ := d₃ % 1461
  1601 + 400 * (d₁ / 146097) + 100 * century + 4 * (d₃ / 1461) + min (d₄ / 365) 3

lemma dayFromYear_succ (y : ℤ) :
    dayFromYear (y + 1) = dayFromYear y + if isLeap y then 366 else 365 := by
  unfold dayFromYear isLeap
  split
  · simp_all; omega
  · simp_all; omega

lemma dayFromYear_cycles {a b c e : ℤ} (hb : 0 ≤ b ∧ b ≤ 3) (hc : 0 ≤ c ∧ c ≤ 24) (he : 0 ≤ e ∧ e ≤ 3) :
    dayFromYear (1601 + 400 * a + 100 * b + 4 * c + e) =
      dayFromYear 1601 + 146097 * a + 36524 * b + 1461 * c + 365 * e := by
  have h4 : (1601 + 400 * a + 100 * b + 4 * c + e - 1969) / 4 = 100 * a + 25 * b + c - 92 := by omega
  have h100 : (1601 + 400 * a + 100 * b + 4 * c + e - 1901) / 100 = 4 * a + b - 3 := by omega
  have h400 : (1601 + 400 * a + 100 * b + 4 * c + e - 1601) / 400 = a := by omega
  unfold dayFromYear
  rw [h4, h100, h400]
  omega

/-- **The year of a day** has begun, and the next has not. -/
theorem yearFromDay_spec (d : ℤ) :
    dayFromYear (yearFromDay d) ≤ d ∧ d < dayFromYear (yearFromDay d + 1) := by
  obtain ⟨d₁, hd₁⟩ : ∃ d₁, d₁ = d - dayFromYear 1601 := ⟨_, rfl⟩
  obtain ⟨a, ha⟩ : ∃ a, a = d₁ / 146097 := ⟨_, rfl⟩
  obtain ⟨b, hb⟩ : ∃ b, b = min (d₁ % 146097 / 36524) 3 := ⟨_, rfl⟩
  obtain ⟨d₃, hd₃⟩ : ∃ d₃, d₃ = d₁ % 146097 - 36524 * b := ⟨_, rfl⟩
  obtain ⟨c, hc⟩ : ∃ c, c = d₃ / 1461 := ⟨_, rfl⟩
  obtain ⟨e, he⟩ : ∃ e, e = min (d₃ % 1461 / 365) 3 := ⟨_, rfl⟩
  have hyear : yearFromDay d = 1601 + 400 * a + 100 * b + 4 * c + e := by
    unfold yearFromDay
    rw [ha, hb, hc, he, hd₃, hb, hd₁]
  have hb' : 0 ≤ b ∧ b ≤ 3 := by omega
  have hc' : 0 ≤ c ∧ c ≤ 24 := by omega
  have he' : 0 ≤ e ∧ e ≤ 3 := by omega
  -- the last year of four is the leap year, unless a century ends with it
  have hleap : isLeap (1601 + 400 * a + 100 * b + 4 * c + e) = true ↔ e = 3 ∧ (c ≠ 24 ∨ b = 3) := by
    simp only [isLeap, Bool.and_eq_true, Bool.or_eq_true, beq_iff_eq, bne_iff_ne]
    omega
  rw [hyear, dayFromYear_succ, dayFromYear_cycles hb' hc' he']
  split
  · rename_i h
    have := hleap.mp h
    omega
  · rename_i h
    have := mt hleap.mpr h
    omega

lemma dayFromYear_mono {y y' : ℤ} (h : y ≤ y') : dayFromYear y ≤ dayFromYear y' := by
  unfold dayFromYear
  omega

/-- A day is in the year or a later one if the year has begun. -/
lemma le_yearFromDay {y d : ℤ} : y ≤ yearFromDay d ↔ dayFromYear y ≤ d := by
  obtain ⟨hbegun, hnext⟩ := yearFromDay_spec d
  refine ⟨fun h => Int.le_trans (dayFromYear_mono h) hbegun, fun h => ?_⟩
  by_contra hlt
  have := dayFromYear_mono (show yearFromDay d + 1 ≤ y by omega)
  omega

/-! ### Months -/

/-- How many days of the year are before the month. -/
def daysBeforeMonth (leap : Bool) (m : ℤ) : ℤ :=
  let leapDay := if leap then 1 else 0
  match m with
  | 0 => 0 | 1 => 31 | 2 => 59 + leapDay | 3 => 90 + leapDay | 4 => 120 + leapDay | 5 => 151 + leapDay
  | 6 => 181 + leapDay | 7 => 212 + leapDay | 8 => 243 + leapDay | 9 => 273 + leapDay
  | 10 => 304 + leapDay | _ => 334 + leapDay

/-- The last month that has begun: as many as begin on the day or before it, after the first. -/
def monthFromDay (leap : Bool) (dayWithinYear : ℤ) : ℤ :=
  ((List.range 11).filter fun m : ℕ => daysBeforeMonth leap (m + 1) ≤ dayWithinYear).length

lemma monthFromDay_range (leap : Bool) (d : ℤ) : 0 ≤ monthFromDay leap d ∧ monthFromDay leap d < 12 := by
  have := List.length_filter_le (fun m : ℕ => decide (daysBeforeMonth leap (m + 1) ≤ d)) (List.range 11)
  rw [List.length_range] at this
  unfold monthFromDay
  omega

/-! ### Dates -/

/-- The day within its year. -/
def dayWithinYear (d : ℤ) : ℤ := d - dayFromYear (yearFromDay d)

def month (d : ℤ) : ℤ := monthFromDay (isLeap (yearFromDay d)) (dayWithinYear d)

def date (d : ℤ) : ℤ := dayWithinYear d - daysBeforeMonth (isLeap (yearFromDay d)) (month d) + 1

def makeDay (year month date : ℤ) : ℤ :=
  let y := year + month / 12
  dayFromYear y + daysBeforeMonth (isLeap y) (month % 12) + date - 1

/-- **A day is that of its date.** -/
theorem makeDay_date (d : ℤ) : makeDay (yearFromDay d) (month d) (date d) = d := by
  have hrange : 0 ≤ month d ∧ month d < 12 := monthFromDay_range _ _
  have hdiv : month d / 12 = 0 := by omega
  have hmod : month d % 12 = month d := by omega
  simp only [makeDay, hdiv, hmod, Int.add_zero, date, dayWithinYear]
  omega

end Splitcore.Calendar
