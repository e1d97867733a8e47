import BrebOS.Lib.Calendar
import BrebOS.Network.Defs

/-!
# The time protocol

`TP.cpp`, what is printed of the time that a server sends: seconds since 1900, in 32 bits.  The line is put
together as `printf` does it (`k__int_str`, in `fb.cpp`).
-/

namespace BrebOS

namespace TP

open Calendar

/-- `EPOCH_OFFSET`. -/
def epochOffset : BitVec 32 := 2208988800

/-- `days_in_month`. -/
def daysInMonth : List ℕ := [31, 28, 31, 30, 31, 30, 31, 31, 30, 31, 30, 31]

/-- `is_leap_year`. -/
def isLeapYear (year : ℕ) : Bool := year % 4 == 0 && (year % 100 != 0 || year % 400 == 0)

/-- The days of a year. -/
def daysInYear (year : ℕ) : ℕ := if isLeapYear year then 366 else 365

lemma le_daysInYear (year : ℕ) : 365 ≤ daysInYear year := by
  rw [daysInYear]
  split_ifs <;> omega

/-- The loop over the years: the days that are left, and the year. -/
def takeYears (days year : ℕ) : ℕ × ℕ :=
  if daysInYear year ≤ days then takeYears (days - daysInYear year) (year + 1) else (days, year)
termination_by days
decreasing_by
  have := le_daysInYear year
  omega

/-- The loop over the months.  The lengths are those from `month` on. -/
def takeMonths (year : ℕ) : List ℕ → ℕ → ℕ → Except NetFault (ℕ × ℕ)
  | [], _, _ => .error .outOfBounds
  | n :: ns, days, month =>
      let n := n + (month == 1 && isLeapYear year).toNat
      if n ≤ days then takeMonths year ns (days - n) (month + 1) else .ok (days, month)

/-- `k__int_str`, for a number that is not negative, to the base 10 and with `zeroPad`. -/
def intStr (i paddingNo : ℕ) : List Char :=
  let b := if i = 0 then ['0'] else ((Nat.digits 10 i).map Nat.digitChar).reverse
  List.replicate (paddingNo - b.length) '0' ++ b

/-- `"Time: %04d-%02d-%02d %02d:%02d:%02d\n"`. -/
def timeText (year month day hours minutes seconds : ℕ) : List Char :=
  ['T', 'i', 'm', 'e', ':', ' '] ++ intStr year 4 ++ ['-'] ++ intStr month 2 ++ ['-'] ++ intStr day 2 ++
    [' '] ++ intStr hours 2 ++ [':'] ++ intStr minutes 2 ++ [':'] ++ intStr seconds 2 ++ ['\n']

/-- `convert_to_local_time`: what it prints. -/
def convertToLocalTime (unixTimestamp : BitVec 32) : Except NetFault (List Char) := do
  let timestamp := (unixTimestamp - epochOffset).toNat
  let seconds := timestamp % 60
  let minutes := timestamp / 60 % 60
  let hours := timestamp / 3600 % 24
  let (days, year) := takeYears (timestamp / 86400) 1970
  let (days, month) ← takeMonths year daysInMonth days 0
  return timeText year (month + 1) (days + 1) hours minutes seconds

/-! ## Reading the line -/

/-- The number that digits write. -/
def decimal (s : List Char) : ℕ := Nat.ofDigits 10 (s.reverse.map fun c => c.toNat - 48)

/-- A number with this many digits. -/
def IsField (n width : ℕ) (s : List Char) : Prop := s.length = width ∧ decimal s = n

/-- The line shows a time. -/
def Shows (text : List Char) (t : DateTime) : Prop :=
  ∃ year month day hours minutes seconds, IsField t.date.year 4 year ∧ IsField t.date.month 2 month ∧
    IsField t.date.day 2 day ∧ IsField t.hours 2 hours ∧ IsField t.minutes 2 minutes ∧
    IsField t.seconds 2 seconds ∧
    text = ['T', 'i', 'm', 'e', ':', ' '] ++ year ++ ['-'] ++ month ++ ['-'] ++ day ++
      [' '] ++ hours ++ [':'] ++ minutes ++ [':'] ++ seconds ++ ['\n']

/-- 1970-01-01 00:00:00. -/
def epoch : DateTime where
  date := ⟨1970, 1, 1, by simp, by simp, by simp, by decide⟩
  hours := 0
  minutes := 0
  seconds := 0
  hours_lt := by simp
  minutes_lt := by simp
  seconds_lt := by simp

lemma parts_eq {a b b' c c' : List Char} {n : ℕ} (h : a ++ (b ++ c) = a ++ (b' ++ c')) (hb : b.length = n)
    (hb' : b'.length = n) : b = b' ∧ c = c' :=
  List.append_inj (List.append_cancel_left h) (hb.trans hb'.symm)

lemma Shows.unique {text : List Char} {t t' : DateTime} (h : Shows text t) (h' : Shows text t') :
    t = t' := by
  obtain ⟨y, mo, d, h, mi, s, ⟨ly, hy⟩, ⟨lmo, hmo⟩, ⟨ld, hd⟩, ⟨lh, hh⟩, ⟨lmi, hmi⟩, ⟨ls, hs⟩, rfl⟩ := h
  obtain ⟨y', mo', d', h', mi', s', ⟨ly', hy'⟩, ⟨lmo', hmo'⟩, ⟨ld', hd'⟩, ⟨lh', hh'⟩, ⟨lmi', hmi'⟩,
    ⟨ls', hs'⟩, htext⟩ := h'
  simp only [List.append_assoc] at htext
  obtain ⟨eyear, hmonths⟩ := parts_eq htext ly ly'
  obtain ⟨emonth, hdays⟩ := parts_eq hmonths lmo lmo'
  obtain ⟨eday, hhours⟩ := parts_eq hdays ld ld'
  obtain ⟨ehours, hminutes⟩ := parts_eq hhours lh lh'
  obtain ⟨eminutes, hseconds⟩ := parts_eq hminutes lmi lmi'
  obtain ⟨eseconds, -⟩ := parts_eq hseconds ls ls'
  have hdate : t.date = t'.date :=
    Date.ext (by rw [← hy, ← hy', eyear]) (by rw [← hmo, ← hmo', emonth]) (by rw [← hd, ← hd', eday])
  exact DateTime.ext hdate (by rw [← hh, ← hh', ehours]) (by rw [← hmi, ← hmi', eminutes])
    (by rw [← hs, ← hs', eseconds])

lemma decimal_intStr (i paddingNo : ℕ) : decimal (intStr i paddingNo) = i := by
  have hdigit : ∀ d ∈ Nat.digits 10 i, (Nat.digitChar d).toNat - 48 = d := by
    intro d hd
    have hlt : d < 10 := Nat.digits_lt_base (by simp) hd
    interval_cases d <;> rfl
  rw [decimal, intStr, List.reverse_append, List.map_append, List.reverse_replicate, List.map_replicate,
    show '0'.toNat - 48 = 0 from rfl, Nat.ofDigits_append_replicate_zero]
  split
  · next hi => rw [hi]; rfl
  · have hback : (Nat.digits 10 i).map ((fun c => c.toNat - 48) ∘ Nat.digitChar) = Nat.digits 10 i :=
      (List.map_congr_left hdigit).trans (List.map_id _)
    rw [List.reverse_reverse, List.map_map, hback, Nat.ofDigits_digits]

lemma length_intStr {i paddingNo : ℕ} (hpos : 0 < paddingNo) (h : i < 10 ^ paddingNo) :
    (intStr i paddingNo).length = paddingNo := by
  have hdigits : (Nat.digits 10 i).length ≤ paddingNo := (Nat.digits_length_le_iff (by simp) i).mpr h
  rw [intStr, List.length_append, List.length_replicate]
  split
  · simp only [List.length_singleton]
    omega
  · simp only [List.length_reverse, List.length_map]
    omega

lemma isField_intStr {i paddingNo : ℕ} (hpos : 0 < paddingNo) (h : i < 10 ^ paddingNo) :
    IsField i paddingNo (intStr i paddingNo) := ⟨length_intStr hpos h, decimal_intStr i paddingNo⟩

lemma shows_timeText {t : DateTime} (hyear : t.date.year < 10000) :
    Shows (timeText t.date.year t.date.month t.date.day t.hours t.minutes t.seconds) t := by
  have hmonth := t.date.month_le
  have hday : t.date.day ≤ 31 := t.date.day_le.trans (by rw [monthLength]; split_ifs <;> omega)
  have hhours := t.hours_lt
  have hminutes := t.minutes_lt
  have hseconds := t.seconds_lt
  exact ⟨_, _, _, _, _, _, isField_intStr (by simp) hyear, isField_intStr (by simp) (by omega),
    isField_intStr (by simp) (by omega), isField_intStr (by simp) (by omega),
    isField_intStr (by simp) (by omega), isField_intStr (by simp) (by omega), rfl⟩

/-! ## The two loops -/

lemma isLeapYear_iff (year : ℕ) : isLeapYear year ↔ IsLeap year := by
  simp [isLeapYear, IsLeap, Nat.dvd_iff_mod_eq_zero]

lemma daysInYear_eq (year : ℕ) : daysInYear year = yearLength year := by
  simp only [daysInYear, isLeapYear_iff, yearLength]

lemma takeYears_days (days year : ℕ) :
    daysBeforeYear (takeYears days year).2 + (takeYears days year).1 = daysBeforeYear year + days ∧
      (takeYears days year).1 < yearLength (takeYears days year).2 ∧
      365 * (takeYears days year).2 ≤ 365 * year + days := by
  induction days, year using takeYears.induct with
  | case1 days year h ih =>
    have hle := le_daysInYear year
    rw [takeYears, if_pos h]
    rw [daysBeforeYear_succ, ← daysInYear_eq] at ih
    exact ⟨by omega, ih.2.1, by omega⟩
  | case2 days year h =>
    rw [takeYears, if_neg h]
    exact ⟨rfl, by rw [← daysInYear_eq]; simpa using h, by simp⟩

lemma monthLength_of_drop (year : ℕ) {month n : ℕ} {ns : List ℕ} (h : daysInMonth.drop month = n :: ns) :
    n + (month == 1 && isLeapYear year).toNat = monthLength year (month + 1) := by
  have hlt : month < 12 := by
    by_contra hge
    rw [List.drop_of_length_le (by simpa [daysInMonth] using hge)] at h
    cases h
  have hleap := isLeapYear_iff year
  interval_cases month <;> simp only [daysInMonth, List.drop, List.cons.injEq] at h <;>
    obtain ⟨rfl, -⟩ := h <;> cases hyear : isLeapYear year <;> simp_all [monthLength]

lemma takeMonths_ok {year : ℕ} {ns : List ℕ} : ∀ (days month : ℕ), daysInMonth.drop month = ns →
    daysBeforeMonth year (month + 1) + days < yearLength year →
    ∃ days' month', takeMonths year ns days month = .ok (days', month') ∧ month' < 12 ∧
      days' < monthLength year (month' + 1) ∧
      daysBeforeMonth year (month' + 1) + days' = daysBeforeMonth year (month + 1) + days := by
  induction ns with
  | nil =>
    intro days month hdrop hlt
    have hge : 12 ≤ month := by simpa [daysInMonth] using hdrop
    have hall : daysBeforeMonth year 13 ≤ daysBeforeMonth year (month + 1) :=
      Finset.sum_le_sum_of_subset (Finset.Ico_subset_Ico_right (by omega))
    rw [daysBeforeMonth_thirteen] at hall
    omega
  | cons n ns ih =>
    intro days month hdrop hlt
    have hmonth : month < 12 := by
      by_contra hge
      rw [List.drop_of_length_le (by simpa [daysInMonth] using hge)] at hdrop
      cases hdrop
    have hlen := monthLength_of_drop year hdrop
    rw [takeMonths, hlen]
    by_cases hle : monthLength year (month + 1) ≤ days
    · have hdrop' : daysInMonth.drop (month + 1) = ns := by
        rw [← List.drop_drop, hdrop]
        rfl
      have hnext := daysBeforeMonth_succ year (Nat.le_add_left 1 month)
      obtain ⟨days', month', hrun, hlt', hday, hsum⟩ := ih (days - monthLength year (month + 1))
        (month + 1) hdrop' (by omega)
      exact ⟨days', month', by simpa [hle] using hrun, hlt', hday, by omega⟩
    · exact ⟨days, month, by simp [hle], hmonth, by omega, rfl⟩

lemma toSeconds_epoch : epoch.toSeconds = daysBeforeYear 1970 * 86400 := by
  simp only [DateTime.toSeconds, Date.days, Date.dayOfYear, epoch, daysBeforeMonth, Finset.Ico_self,
    Finset.sum_empty, Nat.sub_self, Nat.add_zero, Nat.mul_assoc]

/-- **The time is printed that has passed since 1970.** -/
theorem convertToLocalTime_right (unixTimestamp : BitVec 32) :
    ∃ text, convertToLocalTime unixTimestamp = .ok text ∧ (∃ t, Shows text t) ∧
      ∀ t, Shows text t ↔ t.toSeconds = epoch.toSeconds + (unixTimestamp - 2208988800).toNat := by
  have hlt := (unixTimestamp - epochOffset).isLt
  generalize hts : (unixTimestamp - epochOffset).toNat = timestamp at hlt
  obtain ⟨hdays, hyear, hle⟩ := takeYears_days (timestamp / 86400) 1970
  generalize hyears : takeYears (timestamp / 86400) 1970 = years at hdays hyear hle
  obtain ⟨days, year⟩ := years
  dsimp only at hdays hyear hle
  obtain ⟨day, month, hmonths, hmonth, hday, hsum⟩ := takeMonths_ok days 0 rfl
    (by rw [show daysBeforeMonth year (0 + 1) = 0 from rfl]; omega)
  rw [show daysBeforeMonth year (0 + 1) = 0 from rfl] at hsum
  let t : DateTime :=
    { date := ⟨year, month + 1, day + 1, by omega, by omega, by omega, by omega⟩
      hours := timestamp / 3600 % 24
      minutes := timestamp / 60 % 60
      seconds := timestamp % 60
      hours_lt := by omega
      minutes_lt := by omega
      seconds_lt := by omega }
  have hdate : t.date.days = daysBeforeYear 1970 + timestamp / 86400 := by
    show daysBeforeYear year + (daysBeforeMonth year (month + 1) + (day + 1 - 1)) = _
    omega
  have hseconds : t.toSeconds = epoch.toSeconds + timestamp := by
    rw [toSeconds_epoch]
    generalize daysBeforeYear 1970 = start at hdate
    show ((t.date.days * 24 + timestamp / 3600 % 24) * 60 + timestamp / 60 % 60) * 60 + timestamp % 60 = _
    omega
  have hshows : Shows (timeText year (month + 1) (day + 1) (timestamp / 3600 % 24) (timestamp / 60 % 60)
      (timestamp % 60)) t := shows_timeText (t := t) (by show year < 10000; omega)
  have htime : (unixTimestamp - 2208988800).toNat = timestamp := hts
  refine ⟨_, ?_, ⟨t, hshows⟩, fun t' => ?_⟩
  · rw [convertToLocalTime]
    simp only [hts, hyears]
    exact bind_eq_ok.mpr ⟨_, hmonths, rfl⟩
  · rw [htime]
    constructor
    · intro h
      rw [h.unique hshows, hseconds]
    · intro h
      rw [DateTime.ext_toSeconds (h.trans hseconds.symm)]
      exact hshows

end TP

end BrebOS
