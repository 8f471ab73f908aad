import Mathlib.Order.Bounds.Defs
import Splitcore.Calendar.Date
import Splitcore.Dashboard.Service

/-!
The reporting windows by way of the calendar, as the source computes them, and what they are: days from
one midnight in Lagos to the next, and weeks of seven of them.
-/

namespace Splitcore.Dashboard.Windows

open Calendar Date

/-! ### By way of the calendar -/

/-- The date that it is in Lagos, at midnight. -/
def lagosDayStart (now : ℤ) : ℤ :=
  let lagos := now + LAGOS_UTC_OFFSET_MINUTES * 60000
  let midnightLagos := utc (getUTCFullYear lagos) (getUTCMonth lagos) (getUTCDate lagos) 0 0 0 0
  midnightLagos - LAGOS_UTC_OFFSET_MINUTES * 60000

def tonight (now : ℤ) : TimeWindow := ⟨lagosDayStart now, now⟩

def thisWeek (now : ℤ) : TimeWindow := ⟨lagosDayStart now - 6 * 24 * 60 * 60000, now⟩

/-- The years that `Date.UTC` takes for what they are, up to the last of four digits. -/
def InYears (t : ℤ) : Prop := 100 ≤ getUTCFullYear t ∧ getUTCFullYear t ≤ 9999

instance (t : ℤ) : Decidable (InYears t) := inferInstanceAs (Decidable (_ ∧ _))

/-- 23:00:00.000 UTC, which is midnight in Lagos. -/
def IsMidnight (t : ℤ) : Prop :=
  getUTCHours t = 23 ∧ getUTCMinutes t = 0 ∧ getUTCSeconds t = 0 ∧ getUTCMilliseconds t = 0

/-! ### Midnights -/

variable {now t : ℤ}

/-- The last multiple of a day, an hour less. -/
def dayStart (now : ℤ) : ℤ := (now + 3600000) / 86400000 * 86400000 - 3600000

/-- The calendar is gone through and back, so only the day counts. -/
lemma lagosDayStart_of_year (h : 100 ≤ getUTCFullYear (now + 3600000)) : lagosDayStart now = dayStart now := by
  show utc (getUTCFullYear (now + 3600000)) (getUTCMonth (now + 3600000)) (getUTCDate (now + 3600000)) 0 0 0 0 -
    3600000 = _
  rw [utc_midnight h]
  rfl

lemma lagosDayStart_of_inYears (h : InYears now) : lagosDayStart now = dayStart now :=
  lagosDayStart_of_year (getUTCFullYear_mono (by omega) h.1)

/-- **The closed form** that the dashboards are computed with. -/
theorem lagosDayStart_eq (h : InYears now) : lagosDayStart now = Dashboard.lagosDayStart now :=
  lagosDayStart_of_inYears h

lemma isMidnight_iff : IsMidnight t ↔ t % 86400000 = 82800000 := by
  unfold IsMidnight getUTCHours getUTCMinutes getUTCSeconds getUTCMilliseconds timeWithinDay msPerDay
  omega

/-- The last midnight, in closed form. -/
lemma isGreatest_dayStart (now : ℤ) : IsGreatest {t | IsMidnight t ∧ t ≤ now} (dayStart now) := by
  unfold dayStart
  refine ⟨⟨isMidnight_iff.mpr (by omega), by omega⟩, fun t ht => ?_⟩
  have := isMidnight_iff.mp ht.1
  have := ht.2
  omega

/-! ### Days and weeks -/

/-- The Lagos day of an instant: its beginning is the last midnight, days follow one another without
gap or overlap, and the week is the day with the six before it. -/
structure LagosDay (now : ℤ) : Prop where
  greatest : IsGreatest {t | IsMidnight t ∧ t ≤ now} (lagosDayStart now)
  elapsed : 0 ≤ now - lagosDayStart now ∧ now - lagosDayStart now < msPerDay
  idempotent : lagosDayStart (lagosDayStart now) = lagosDayStart now
  monotone : ∀ later, InYears later → now ≤ later → lagosDayStart now ≤ lagosDayStart later
  same : ∀ t, InYears t → (lagosDayStart t = lagosDayStart now ↔
    lagosDayStart now ≤ t ∧ t < lagosDayStart now + msPerDay)
  next : InYears (now + msPerDay) → lagosDayStart (now + msPerDay) = lagosDayStart now + msPerDay
  week : IsGreatest {t | IsMidnight t ∧ t ≤ now - 6 * msPerDay} (thisWeek now).start
  sixth : InYears (now - 6 * msPerDay) → (thisWeek now).start = lagosDayStart (now - 6 * msPerDay)
  seven : ∀ t, InYears t → t ≤ now → ((thisWeek now).start ≤ t ↔
    ∃ k, 0 ≤ k ∧ k ≤ 6 ∧ lagosDayStart t = lagosDayStart now - k * msPerDay)
  nextWeek : InYears (now + 7 * msPerDay) →
    (thisWeek (now + 7 * msPerDay)).start = lagosDayStart now + msPerDay

/-- **The days of Lagos**, at every instant. -/
theorem lagosDayStart_spec (now : ℤ) (h : InYears now) : LagosDay now := by
  have hnow := lagosDayStart_of_inYears h
  have hweek : (thisWeek now).start = dayStart (now - 6 * msPerDay) := by
    show lagosDayStart now - 6 * 24 * 60 * 60000 = _
    rw [hnow]
    unfold dayStart msPerDay
    omega
  refine ⟨hnow ▸ isGreatest_dayStart now, ?_, ?_, fun later hlater hle => ?_, fun t ht => ?_,
    fun hnext => ?_, hweek ▸ isGreatest_dayStart _, fun hsixth => ?_, fun t ht hle => ?_, fun hnext => ?_⟩
  · rw [hnow]
    unfold dayStart msPerDay
    omega
  · -- the beginning of the day may be in the year before, but in Lagos it is in this one
    have hlagos : 100 ≤ getUTCFullYear (lagosDayStart now + 3600000) := by
      have hyear : 100 ≤ getUTCFullYear (now + 3600000) := getUTCFullYear_mono (by omega) h.1
      have hday : day (lagosDayStart now + 3600000) = day (now + 3600000) := by
        rw [hnow]
        unfold day dayStart msPerDay
        omega
      rwa [getUTCFullYear, hday]
    rw [lagosDayStart_of_year hlagos, hnow]
    unfold dayStart
    omega
  · rw [hnow, lagosDayStart_of_inYears hlater]
    unfold dayStart
    omega
  · rw [hnow, lagosDayStart_of_inYears ht]
    unfold dayStart msPerDay
    omega
  · rw [hnow, lagosDayStart_of_inYears hnext]
    unfold dayStart msPerDay
    omega
  · rw [hweek, lagosDayStart_of_inYears hsixth]
  · have hseven : dayStart (now - 6 * msPerDay) ≤ t ↔
        ∃ k, 0 ≤ k ∧ k ≤ 6 ∧ dayStart t = dayStart now - k * msPerDay := by
      unfold dayStart msPerDay
      constructor
      · intro hbegun
        exact ⟨(now + 3600000) / 86400000 - (t + 3600000) / 86400000, by omega, by omega, by omega⟩
      · rintro ⟨k, hk, hk', heq⟩
        omega
    rw [hweek, hnow, lagosDayStart_of_inYears ht]
    exact hseven
  · show lagosDayStart (now + 7 * msPerDay) - 6 * 24 * 60 * 60000 = _
    rw [hnow, lagosDayStart_of_inYears hnext]
    unfold dayStart msPerDay
    omega

/-- Half past one in Lagos, on the first of a month. -/
theorem lagosDayStart_spec_sample : InYears (utc 2026 9 1 0 30 0 0) ∧ LagosDay (utc 2026 9 1 0 30 0 0) ∧
    lagosDayStart (utc 2026 9 1 0 30 0 0) = utc 2026 8 30 23 0 0 0 := by
  have h : InYears (utc 2026 9 1 0 30 0 0) := by decide
  exact ⟨h, lagosDayStart_spec _ h, by decide⟩

end Splitcore.Dashboard.Windows
