import TypedCql.Timestamp.Calendar

/-!
# Days and dates

Every day has a date that the calendar knows, and the date names that day (`toDays_ofDays`,
`isValid_ofDays`). A day is first placed in its cycle of four hundred years (`InCycle`): within a
year that begins with March, nothing but the last day depends on the leap years.
-/

namespace TypedCql.CalendarDate

/-- The date of a day of a year, both counted from 1 March. -/
def ofDayOfYear (year : Int) (day : Nat) : CalendarDate :=
  let month := (5 * day + 2) / 153
  { year := if month < 10 then year else year + 1
    month := if month < 10 then month + 3 else month - 9
    day := day - daysBefore month + 1 }

/-- A place in the cycle: a century, four years in it, one of these and a day of this one. Only a
year before a leap day has a day more. -/
structure InCycle (century four single day : Nat) : Prop where
  century_le : century ≤ 3
  four_le : four ≤ 24
  single_le : single ≤ 3
  day_le : day ≤ 365
  leap : day = 365 → single = 3 ∧ (four ≤ 23 ∨ century = 3)

/-- The days of the whole cycle have their places. The minima keep the last day of a leap year in
that year. -/
theorem inCycle_of_lt {dayOfCycle : Nat} (h : dayOfCycle < 146097) :
    let century := min (dayOfCycle / 36524) 3
    let dayOfCentury := dayOfCycle - century * 36524
    let four := dayOfCentury / 1461
    let dayOfFour := dayOfCentury - four * 1461
    let single := min (dayOfFour / 365) 3
    InCycle century four single (dayOfFour - single * 365) ∧
      dayOfCycle = century * 36524 + four * 1461 + single * 365 + (dayOfFour - single * 365) := by
  intro century dayOfCentury four dayOfFour single
  have hcentury : century ≤ 3 := Nat.min_le_right _ _
  have hdayOfCentury : dayOfCycle = century * 36524 + dayOfCentury ∧ dayOfCentury ≤ 36524 ∧
      (dayOfCentury = 36524 → century = 3) := by omega
  have hfour : four ≤ 24 ∧ dayOfCentury = four * 1461 + dayOfFour ∧ dayOfFour ≤ 1460 := by omega
  have hsingle : single ≤ 3 ∧ single * 365 ≤ dayOfFour ∧ dayOfFour ≤ single * 365 + 365 ∧
      (dayOfFour = single * 365 + 365 → dayOfFour = 1460) := by omega
  refine ⟨⟨hcentury, hfour.1, hsingle.1, by omega, ?_⟩, by omega⟩
  intro hleap
  omega

/-- A day taken apart: the place in its cycle, and the date that goes with it. -/
theorem exists_ofDayOfYear (days : Int) : ∃ (cycle : Int) (century four single day : Nat),
    InCycle century four single day ∧
      days + epochOffset = cycle * daysInCycle +
        ((century * 36524 + four * 1461 + single * 365 + day : Nat) : Int) ∧
      ofDays days =
        ofDayOfYear (cycle * 400 + ((century * 100 + four * 4 + single : Nat) : Int)) day := by
  have hlt : (days + epochOffset - (days + epochOffset) / daysInCycle * daysInCycle).toNat < 146097 := by
    simp only [daysInCycle]
    omega
  obtain ⟨hplace, hsum⟩ := inCycle_of_lt hlt
  refine ⟨(days + epochOffset) / daysInCycle, _, _, _, _, hplace, ?_, rfl⟩
  rw [← hsum]
  simp only [daysInCycle]
  omega

/-- Days before 1 March of a year, counted from 1 March of the year 0. -/
def daysBeforeYear (year : Int) : Int :=
  let yearOfCycle := year - year / 400 * 400
  year / 400 * daysInCycle + yearOfCycle * 365 + yearOfCycle / 4 - yearOfCycle / 100

theorem daysBeforeYear_place {century four single day : Nat} (h : InCycle century four single day)
    (cycle : Int) :
    daysBeforeYear (cycle * 400 + ((century * 100 + four * 4 + single : Nat) : Int)) =
      cycle * daysInCycle + ((century * 36524 + four * 1461 + single * 365 : Nat) : Int) := by
  obtain ⟨hcentury, hfour, hsingle, -, -⟩ := h
  have hcycle : (cycle * 400 + ((century * 100 + four * 4 + single : Nat) : Int)) / 400 = cycle := by
    omega
  simp only [daysBeforeYear, hcycle]
  omega

/-- The month of a day of the year. -/
theorem month_le {day : Nat} (h : day ≤ 365) : (5 * day + 2) / 153 ≤ 11 := by omega

theorem toDays_ofDayOfYear (year : Int) {day : Nat} (h : day ≤ 365) :
    (ofDayOfYear year day).toDays = daysBeforeYear year + day - epochOffset := by
  have hmonth := month_le h
  have hbefore : daysBefore ((5 * day + 2) / 153) ≤ day := by
    unfold daysBefore
    omega
  by_cases hlt : (5 * day + 2) / 153 < 10
  · simp only [toDays, ofDayOfYear, hlt, if_true, daysBeforeYear]
    rw [if_neg (by omega), if_neg (by omega), Nat.add_sub_cancel]
    omega
  · simp only [toDays, ofDayOfYear, hlt, if_false, daysBeforeYear]
    rw [if_pos (by omega), if_pos (by omega), Int.add_sub_cancel, Nat.sub_add_cancel (by omega)]
    omega

theorem isLeapYear_place {century four single day : Nat} (h : InCycle century four single day)
    (hday : day = 365) (cycle : Int) :
    isLeapYear (cycle * 400 + ((century * 100 + four * 4 + single : Nat) : Int) + 1) = true := by
  obtain ⟨hcentury, hfour, -, -, hleap⟩ := h
  obtain ⟨rfl, hlast⟩ := hleap hday
  simp only [isLeapYear, decide_eq_true_eq]
  omega

/-- From March to January, a month lasts until the next one begins. -/
theorem daysInMonth_eq (year : Int) {month : Nat} (h : month ≤ 10) :
    daysInMonth year (if month < 10 then month + 3 else month - 9) =
      daysBefore (month + 1) - daysBefore month := by
  obtain rfl | rfl | rfl | rfl | rfl | rfl | rfl | rfl | rfl | rfl | rfl : month = 0 ∨ month = 1 ∨
    month = 2 ∨ month = 3 ∨ month = 4 ∨ month = 5 ∨ month = 6 ∨ month = 7 ∨ month = 8 ∨ month = 9 ∨
    month = 10 := by omega
  all_goals rfl

theorem isValid_ofDayOfYear {year : Int} {day : Nat} (h : day ≤ 365)
    (hleap : day = 365 → isLeapYear (year + 1) = true) : (ofDayOfYear year day).isValid = true := by
  have hmonth := month_le h
  simp only [isValid, ofDayOfYear]
  refine decide_eq_true ⟨by split <;> omega, by split <;> omega, by omega, ?_⟩
  by_cases hlast : (5 * day + 2) / 153 = 11
  · -- February, which the leap day ends
    rw [hlast, if_neg (by omega), if_neg (by omega)]
    simp only [daysInMonth, daysBefore]
    by_cases hday : day = 365
    · rw [hleap hday, if_pos rfl]
      omega
    · split <;> omega
  · have hnext : day < daysBefore ((5 * day + 2) / 153 + 1) := by
      unfold daysBefore
      omega
    have hbefore : daysBefore ((5 * day + 2) / 153) ≤ day := by
      unfold daysBefore
      omega
    rw [daysInMonth_eq _ (by omega)]
    omega

/-- No month or day of the calendar has more than two digits. -/
theorem lt_of_isValid {d : CalendarDate} (h : d.isValid = true) : d.month < 100 ∧ d.day < 100 := by
  have hlength : daysInMonth d.year d.month ≤ 31 := by
    unfold daysInMonth
    split
    · split <;> decide
    all_goals decide
  obtain ⟨-, hmonth, -, hday⟩ := of_decide_eq_true h
  omega

/-- **Days come back from their dates.** -/
@[simp] theorem toDays_ofDays (days : Int) : (ofDays days).toDays = days := by
  obtain ⟨cycle, century, four, single, day, hplace, hdays, hdate⟩ := exists_ofDayOfYear days
  rw [hdate, toDays_ofDayOfYear _ hplace.day_le, daysBeforeYear_place hplace]
  omega

/-- Every day has a date of the calendar. -/
theorem isValid_ofDays (days : Int) : (ofDays days).isValid = true := by
  obtain ⟨cycle, century, four, single, day, hplace, -, hdate⟩ := exists_ofDayOfYear days
  rw [hdate]
  apply isValid_ofDayOfYear hplace.day_le
  intro hday
  exact isLeapYear_place hplace hday cycle

end TypedCql.CalendarDate
