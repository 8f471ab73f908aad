import Splitcore.Calendar.Gregorian

/-!
Instants in milliseconds since the epoch, with their calendar fields in UTC, as ECMAScript's `Date` has
them. Instants too far from the epoch for a `Date` are not left out.
-/

namespace Splitcore.Calendar.Date

def msPerDay : ℤ := 86400000

/-- The day of an instant. -/
def day (t : ℤ) : ℤ := t / msPerDay

def timeWithinDay (t : ℤ) : ℤ := t % msPerDay

def getUTCFullYear (t : ℤ) : ℤ := yearFromDay (day t)

def getUTCMonth (t : ℤ) : ℤ := month (day t)

def getUTCDate (t : ℤ) : ℤ := date (day t)

def getUTCHours (t : ℤ) : ℤ := timeWithinDay t / 3600000

def getUTCMinutes (t : ℤ) : ℤ := timeWithinDay t / 60000 % 60

def getUTCSeconds (t : ℤ) : ℤ := timeWithinDay t / 1000 % 60

def getUTCMilliseconds (t : ℤ) : ℤ := timeWithinDay t % 1000

/-- The years from 0 to 99 stand for those of the twentieth century. -/
def makeFullYear (year : ℤ) : ℤ := if 0 ≤ year ∧ year ≤ 99 then 1900 + year else year

def utc (year month date hours minutes seconds ms : ℤ) : ℤ :=
  makeDay (makeFullYear year) month date * msPerDay +
    (hours * 3600000 + minutes * 60000 + seconds * 1000 + ms)

variable {t t' y : ℤ}

lemma getUTCFullYear_mono (h : t ≤ t') (hy : y ≤ getUTCFullYear t) : y ≤ getUTCFullYear t' := by
  unfold getUTCFullYear at *
  rw [le_yearFromDay] at *
  refine Int.le_trans hy ?_
  unfold day msPerDay
  omega

/-- The midnight that an instant's date begins at. -/
lemma utc_midnight (h : 100 ≤ getUTCFullYear t) :
    utc (getUTCFullYear t) (getUTCMonth t) (getUTCDate t) 0 0 0 0 = day t * msPerDay := by
  have hyear : makeFullYear (getUTCFullYear t) = getUTCFullYear t := if_neg (by omega)
  have hday : makeDay (getUTCFullYear t) (getUTCMonth t) (getUTCDate t) = day t := makeDay_date (day t)
  unfold utc
  rw [hyear, hday]
  omega

end Splitcore.Calendar.Date
