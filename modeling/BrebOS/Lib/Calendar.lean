import Mathlib.Tactic

/-!
# The Gregorian calendar

The calendar, continued to all years from 0 on.  A date is the number of days that have passed since the
first day of the year 0, and a number of days is that of one date (`Date.ext_days`).
-/

namespace BrebOS.Calendar

/-- A year with 29 days in February. -/
def IsLeap (year : ℕ) : Prop := 4 ∣ year ∧ (¬ 100 ∣ year ∨ 400 ∣ year)

instance (year : ℕ) : Decidable (IsLeap year) := inferInstanceAs (Decidable (_ ∧ _))

def yearLength (year : ℕ) : ℕ := if IsLeap year then 366 else 365

/-- The length of a month, of which `1` is January. -/
def monthLength (year month : ℕ) : ℕ :=
  if month = 2 then if IsLeap year then 29 else 28
  else if month ∈ [4, 6, 9, 11] then 30 else 31

/-- The days before the first day of a year. -/
def daysBeforeYear (year : ℕ) : ℕ := ∑ y ∈ Finset.range year, yearLength y

/-- The days of a year before the first day of a month. -/
def daysBeforeMonth (year month : ℕ) : ℕ := ∑ m ∈ Finset.Ico 1 month, monthLength year m

lemma daysBeforeYear_succ (year : ℕ) :
    daysBeforeYear (year + 1) = daysBeforeYear year + yearLength year :=
  Finset.sum_range_succ _ _

lemma daysBeforeMonth_succ (year : ℕ) {month : ℕ} (h : 1 ≤ month) :
    daysBeforeMonth year (month + 1) = daysBeforeMonth year month + monthLength year month :=
  Finset.sum_Ico_succ_top h _

lemma daysBeforeMonth_thirteen (year : ℕ) : daysBeforeMonth year 13 = yearLength year := by
  have hsum : ∀ m, 1 ≤ m → daysBeforeMonth year (m + 1) = daysBeforeMonth year m + monthLength year m :=
    fun m hm => daysBeforeMonth_succ year hm
  have hone : daysBeforeMonth year 1 = 0 := rfl
  rw [hsum 12 (by simp), hsum 11 (by simp), hsum 10 (by simp), hsum 9 (by simp), hsum 8 (by simp),
    hsum 7 (by simp), hsum 6 (by simp), hsum 5 (by simp), hsum 4 (by simp), hsum 3 (by simp),
    hsum 2 (by simp), hsum 1 (by simp), hone]
  by_cases h : IsLeap year <;> simp [monthLength, yearLength, h]

lemma daysBeforeYear_mono {y y' : ℕ} (h : y < y') :
    daysBeforeYear y + yearLength y ≤ daysBeforeYear y' := by
  rw [← daysBeforeYear_succ]
  exact Finset.sum_le_sum_of_subset (Finset.range_mono h)

lemma daysBeforeMonth_mono (year : ℕ) {m m' : ℕ} (hm : 1 ≤ m) (h : m < m') :
    daysBeforeMonth year m + monthLength year m ≤ daysBeforeMonth year m' := by
  rw [← daysBeforeMonth_succ year hm]
  exact Finset.sum_le_sum_of_subset (Finset.Ico_subset_Ico_right h)

/-- A date that is in the calendar. -/
@[ext]
structure Date where
  year : ℕ
  month : ℕ
  day : ℕ
  month_pos : 1 ≤ month
  month_le : month ≤ 12
  day_pos : 1 ≤ day
  day_le : day ≤ monthLength year month

namespace Date

variable {d d' : Date}

/-- The days of the year before a date. -/
def dayOfYear (d : Date) : ℕ := daysBeforeMonth d.year d.month + (d.day - 1)

/-- The days before a date. -/
def days (d : Date) : ℕ := daysBeforeYear d.year + d.dayOfYear

lemma dayOfYear_lt (d : Date) : d.dayOfYear < yearLength d.year := by
  have hnext := daysBeforeMonth_mono d.year d.month_pos (Nat.lt_succ_of_le d.month_le)
  rw [daysBeforeMonth_thirteen] at hnext
  have hpos := d.day_pos
  have hle := d.day_le
  rw [dayOfYear]
  omega

lemma days_lt_of_year (h : d.year < d'.year) : d.days < d'.days := by
  have hyear := daysBeforeYear_mono h
  have hday := d.dayOfYear_lt
  rw [days, days]
  omega

lemma dayOfYear_lt_of_month (hyear : d.year = d'.year) (h : d.month < d'.month) :
    d.dayOfYear < d'.dayOfYear := by
  have hmonth := daysBeforeMonth_mono d.year d.month_pos h
  have hpos := d.day_pos
  have hle := d.day_le
  rw [dayOfYear, dayOfYear, ← hyear]
  omega

lemma ext_days (h : d.days = d'.days) : d = d' := by
  have hyear : d.year = d'.year := by
    rcases Nat.lt_trichotomy d.year d'.year with hlt | heq | hgt
    · exact absurd h (days_lt_of_year hlt).ne
    · exact heq
    · exact absurd h (days_lt_of_year hgt).ne'
  have hday : d.dayOfYear = d'.dayOfYear := by
    rw [days, days, hyear] at h
    exact Nat.add_left_cancel h
  have hmonth : d.month = d'.month := by
    rcases Nat.lt_trichotomy d.month d'.month with hlt | heq | hgt
    · exact absurd hday (dayOfYear_lt_of_month hyear hlt).ne
    · exact heq
    · exact absurd hday (dayOfYear_lt_of_month hyear.symm hgt).ne'
  rw [dayOfYear, dayOfYear, hyear, hmonth] at hday
  have hpos := d.day_pos
  have hpos' := d'.day_pos
  exact Date.ext hyear hmonth (by omega)

end Date

/-- A time of a day. -/
@[ext]
structure DateTime where
  date : Date
  hours : ℕ
  minutes : ℕ
  seconds : ℕ
  hours_lt : hours < 24
  minutes_lt : minutes < 60
  seconds_lt : seconds < 60

namespace DateTime

/-- The seconds before a time. -/
def toSeconds (t : DateTime) : ℕ := ((t.date.days * 24 + t.hours) * 60 + t.minutes) * 60 + t.seconds

lemma ext_toSeconds {t t' : DateTime} (h : t.toSeconds = t'.toSeconds) : t = t' := by
  have hh := t.hours_lt
  have hm := t.minutes_lt
  have hs := t.seconds_lt
  have hh' := t'.hours_lt
  have hm' := t'.minutes_lt
  have hs' := t'.seconds_lt
  rw [toSeconds, toSeconds] at h
  have hdays : t.date.days = t'.date.days := by omega
  exact DateTime.ext (Date.ext_days hdays) (by omega) (by omega) (by omega)

end DateTime

end BrebOS.Calendar
