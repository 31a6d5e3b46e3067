import Mathlib
import TableCleaner.Calendar.DateTime

/-!
# Days and moments by number

Counting days leads back to the calendar. The cycles of 400 years are alike, so the year is found
from the day within its cycle, and then the month from the day within the year. A moment is a day and
the part of it that has passed, in whatever unit it is counted.
-/

namespace TableCleaner

/-! ## Months -/

namespace Date

theorem foldl_add_eq {α : Type} (f : α → Nat) (l : List α) (r : Nat) :
    l.foldl (fun n a => n + f a) r = r + (l.map f).sum := by
  induction l generalizing r with
  | nil => rfl
  | cons a l ih => rw [List.foldl_cons, ih, List.map_cons, List.sum_cons, Nat.add_assoc]

/-- The days of some months that follow one another. -/
def monthDays (year : Int) (first count : Nat) : Nat :=
  ((List.range' first count).map (daysInMonth year)).sum

theorem monthDays_succ (year : Int) (first count : Nat) :
    monthDays year first (count + 1) = daysInMonth year first + monthDays year (first + 1) count := by
  rw [monthDays, List.range'_succ, List.map_cons, List.sum_cons]
  rfl

theorem daysBefore_eq (d : Date) :
    d.daysBefore = d.day - 1 + monthDays d.year 1 (d.month - 1) := by
  rw [daysBefore, foldl_add_eq, monthDays, List.range'_eq_map_range, List.map_map]
  simp only [Function.comp_def, Nat.add_comm 1]

theorem monthFrom_eq (year : Int) (month count : Nat) {months r : Nat} (hcount : count ≤ months)
    (hr : r < daysInMonth year (month + count)) :
    monthFrom year month (r + monthDays year month count) months = (month + count, r + 1) := by
  induction count generalizing month months with
  | zero =>
    cases months with
    | zero => rfl
    | succ n => exact if_pos hr
  | succ count ih =>
    obtain ⟨n, rfl⟩ : ∃ n, months = n + 1 := ⟨months - 1, by omega⟩
    have hpassed : r + monthDays year month (count + 1) - daysInMonth year month =
        r + monthDays year (month + 1) count := by
      rw [monthDays_succ]
      omega
    have hnext : month + (count + 1) = month + 1 + count := by omega
    rw [hnext] at hr ⊢
    rw [monthFrom, if_neg (by rw [monthDays_succ]; omega), hpassed, ih _ (by omega) hr]

theorem monthDays_concat (year : Int) (first count : Nat) :
    monthDays year first (count + 1) =
      monthDays year first count + daysInMonth year (first + count) := by
  simp [monthDays, List.range'_concat]

theorem monthDays_le (year : Int) :
    ∀ count ≤ 12, monthDays year 1 count ≤ if isLeapYear year then 366 else 365 := by
  unfold monthDays daysInMonth
  generalize isLeapYear year = leap
  revert leap
  decide

theorem daysBefore_lt (d : Date) : d.daysBefore < if isLeapYear d.year then 366 else 365 := by
  have hmonth := d.isDate.2.1
  have hday := d.isDate.2.2
  have hmonths := monthDays_concat d.year 1 (d.month - 1)
  have hlast := monthDays_le d.year d.month hmonth.2
  rw [Nat.sub_add_cancel hmonth.1, Nat.add_sub_cancel' hmonth.1] at hmonths
  rw [daysBefore_eq]
  omega

/-! ## Years -/

theorem isLeapYear_iff (y : Nat) (cycle : Int) :
    isLeapYear (400 * cycle + y) = true ↔ y % 4 = 0 ∧ (y % 100 ≠ 0 ∨ y % 400 = 0) := by
  unfold isLeapYear
  simp only [Bool.and_eq_true, Bool.or_eq_true, beq_iff_eq, bne_iff_ne]
  omega

theorem daysBeforeYear_succ (y : Nat) (cycle : Int) :
    daysBeforeYear (y + 1) =
      daysBeforeYear y + if isLeapYear (400 * cycle + y) then 366 else 365 := by
  -- Each of the three counts goes up by one in the years that it divides.
  have hfour : (y + 1 + 3) / 4 = (y + 3) / 4 + if y % 4 = 0 then 1 else 0 := by split <;> omega
  have hhundred : (y + 1 + 99) / 100 = (y + 99) / 100 + if y % 100 = 0 then 1 else 0 := by
    split <;> omega
  have hcycle : (y + 1 + 399) / 400 = (y + 399) / 400 + if y % 400 = 0 then 1 else 0 := by
    split <;> omega
  have hless : (y + 99) / 100 ≤ 365 * y + (y + 3) / 4 := by omega
  have hdvd : (y % 100 = 0 → y % 4 = 0) ∧ (y % 400 = 0 → y % 100 = 0) := by omega
  simp only [daysBeforeYear, hfour, hhundred, hcycle, isLeapYear_iff]
  generalize (y + 3) / 4 = fours, (y + 99) / 100 = hundreds, (y + 399) / 400 = cycles,
    y % 4 = p, y % 100 = q, y % 400 = r at *
  by_cases hp : p = 0 <;> by_cases hq : q = 0 <;> by_cases hr : r = 0 <;> simp [hp, hq, hr] <;>
    omega

theorem daysBeforeYear_bounds (y : Nat) (hy : y ≤ 400) :
    365 * y ≤ daysBeforeYear y ∧ daysBeforeYear y ≤ 365 * y + 97 := by
  unfold daysBeforeYear
  omega

theorem yearInCycle_eq {y r : Nat} (hy : y < 400) (hlow : daysBeforeYear y ≤ r)
    (hhigh : r < daysBeforeYear (y + 1)) : yearInCycle r = y := by
  have hfirst := daysBeforeYear_bounds y (Nat.le_of_lt hy)
  have hlast := daysBeforeYear_bounds (y + 1) hy
  -- The leap days of a cycle make less than a year.
  have hguess : r / 365 = y ∨ r / 365 = y + 1 := by omega
  unfold yearInCycle
  rcases hguess with h | h
  · rw [h, if_pos hlow]
  · rw [h, if_neg (Nat.not_le_of_lt hhigh), Nat.add_sub_cancel]

theorem ofDayNumber?_dayNumber (d : Date) : ofDayNumber? d.dayNumber = some d := by
  obtain ⟨y, hy⟩ := Int.eq_ofNat_of_zero_le (Int.emod_nonneg d.year (by decide : (400 : Int) ≠ 0))
  have hyear : 400 * (d.year / 400) + y = d.year := by omega
  have hlt : y < 400 := by omega
  have hinYear : daysBeforeYear y + d.daysBefore < daysBeforeYear (y + 1) := by
    have hsucc := daysBeforeYear_succ y (d.year / 400)
    rw [hyear] at hsucc
    have hbefore := daysBefore_lt d
    omega
  have hinCycle : daysBeforeYear y + d.daysBefore < cycleDays := by
    have hnext := daysBeforeYear_bounds (y + 1) hlt
    unfold cycleDays
    omega
  have hnumber : d.dayNumber - yearZero =
      cycleDays * (d.year / 400) + (daysBeforeYear y + d.daysBefore : Nat) := by
    rw [dayNumber, hy, Int.toNat_natCast]
    omega
  have hcycle : (d.dayNumber - yearZero) / cycleDays = d.year / 400 := by
    rw [hnumber]
    unfold cycleDays at *
    omega
  have hday : (d.dayNumber - yearZero) % cycleDays = (daysBeforeYear y + d.daysBefore : Nat) := by
    rw [hnumber]
    unfold cycleDays at *
    omega
  have hmonth : monthFrom d.year 1 d.daysBefore 11 = (d.month, d.day) := by
    have hdate := d.isDate.2
    have hinMonth : d.day - 1 < daysInMonth d.year (1 + (d.month - 1)) := by
      rw [Nat.add_sub_cancel' hdate.1.1]
      omega
    rw [daysBefore_eq, monthFrom_eq d.year 1 (d.month - 1) (by omega) hinMonth,
      Nat.add_sub_cancel' hdate.1.1, Nat.sub_add_cancel hdate.2.1]
  unfold ofDayNumber?
  simp only [hcycle, hday, Int.toNat_natCast, yearInCycle_eq hlt (Nat.le_add_right _ _) hinYear,
    hyear, Nat.add_sub_cancel_left, hmonth]
  exact dif_pos d.isDate

end Date

/-! ## Times -/

/-- The nanoseconds from midnight. A leap second counts on into the next minute. -/
def TimeOfDay.nanosOfDay (time : TimeOfDay) : Nat :=
  (time.hour * 3600 + time.minute * 60 + time.second) * nanosPerSecond + time.nanos

variable {time : TimeOfDay} {t : DateTime}

theorem TimeOfDay.nanosOfDay_lt (h : time.nanos < nanosPerSecond) :
    time.nanosOfDay < 86400 * nanosPerSecond := by
  obtain ⟨hhour, hminute, hsecond, -⟩ := time.isTime
  unfold nanosOfDay nanosPerSecond at *
  omega

theorem TimeOfDay.ofNanos?_nanosOfDay (h : time.nanos < nanosPerSecond) :
    ofNanos? time.nanosOfDay = some time := by
  obtain ⟨hhour, hminute, hsecond, -⟩ := time.isTime
  have hseconds : time.nanosOfDay / nanosPerSecond =
      time.hour * 3600 + time.minute * 60 + time.second := by
    unfold nanosOfDay nanosPerSecond at *
    omega
  have hnanos : time.nanosOfDay % nanosPerSecond = time.nanos := by
    unfold nanosOfDay nanosPerSecond at *
    omega
  have hfields : (time.hour * 3600 + time.minute * 60 + time.second) / 3600 = time.hour ∧
      (time.hour * 3600 + time.minute * 60 + time.second) / 60 % 60 = time.minute ∧
      (time.hour * 3600 + time.minute * 60 + time.second) % 60 = time.second := by
    omega
  unfold ofNanos?
  simp only [hseconds, hnanos, hfields]
  exact dif_pos time.isTime

namespace DateTime

/-- The nanoseconds from the start of 1970. -/
def nanosFromEpoch (t : DateTime) : Int :=
  t.date.dayNumber * (86400 * nanosPerSecond : Nat) + t.time.nanosOfDay

theorem ofUnits?_eq {perSecond : Nat} {n : Int} (hunit : perSecond ∣ nanosPerSecond)
    (hwhole : t.time.nanos < nanosPerSecond)
    (h : t.nanosFromEpoch = n * (nanosPerSecond / perSecond : Nat)) :
    ofUnits? perSecond n = some t := by
  obtain ⟨k, hk⟩ := hunit
  have hprod : 0 < perSecond * k := by
    rw [← hk]
    decide
  have hpos : 0 < perSecond := Nat.pos_of_mul_pos_right hprod
  have hk' : (0 : Int) < k := Int.natCast_pos.mpr (Nat.pos_of_mul_pos_left hprod)
  have hscale : nanosPerSecond / perSecond = k := by rw [hk, Nat.mul_div_cancel_left _ hpos]
  have hperDay : (86400 * perSecond : Int) * k = (86400 * nanosPerSecond : Nat) := by
    rw [hk, Int.natCast_mul, Int.natCast_mul, Int.mul_assoc]
    rfl
  have hday := TimeOfDay.nanosOfDay_lt hwhole
  rw [hscale] at h
  have hdate : n / (86400 * perSecond) = t.date.dayNumber := by
    rw [← Int.mul_ediv_mul_of_pos_left n _ hk', ← h, hperDay, nanosFromEpoch]
    unfold nanosPerSecond at *
    omega
  have htime : (n % (86400 * perSecond)).toNat * k = t.time.nanosOfDay := by
    have hmod : k * (n % (86400 * perSecond)) = (t.time.nanosOfDay : Int) := by
      rw [← Int.mul_emod_mul_of_pos n _ hk', Int.mul_comm _ n, Int.mul_comm _ (_ * _), ← h, hperDay,
        nanosFromEpoch]
      unfold nanosPerSecond at *
      omega
    have hnonneg : 0 ≤ n % (86400 * perSecond) := Int.emod_nonneg _ (by omega)
    rw [← Int.toNat_of_nonneg hnonneg, ← Int.natCast_mul, Nat.mul_comm] at hmod
    exact Int.ofNat_inj.mp hmod
  unfold ofUnits?
  simp only [hscale, hdate, htime, Date.ofDayNumber?_dayNumber,
    TimeOfDay.ofNanos?_nanosOfDay hwhole]
  rfl

end DateTime

end TableCleaner
