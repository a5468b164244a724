import Registrar.Time.Calendar
import Registrar.Time.Rfc3339

set_option autoImplicit false

/-! # The calendar and its day numbers

Every day number is the number of the date it belongs to (`toDay_ofDay`), that date is one the
calendar has (`isValid_ofDay`), and the years stay in the range of the instants
(`yearInRange_ofDay`).

The calendar repeats after an era of 400 years, 146097 days. The year of a day of the era is found
by a division that corrects for the leap days passed; that it lands in the right year is checked at
the first and the last day of each year (`march_bounds`) and carried to the days between by
monotonicity. -/

namespace Registrar.CivilDate

/-! ## The years of an era -/

/-- The day of the era on which its year `y` begins. Years begin in March. -/
def marchFirst (y : Int) : Int := 365 * y + y / 4 - y / 100

/-- The days of the era up to day `e`, leap days left out. -/
def commonDays (e : Int) : Int := e - e / 1460 + e / 36524 - e / 146096

theorem commonDays_mono {a b : Int} (h : a ≤ b) : commonDays a ≤ commonDays b := by
  -- An era's leap days are one in four years less one in each century but the last.
  have ha : a / 146096 = a / 36524 / 4 := by omega
  have hb : b / 146096 = b / 36524 / 4 := by omega
  unfold commonDays
  omega

theorem march_bounds : ∀ y : Nat, y < 400 → 365 * (y : Int) ≤ commonDays (marchFirst y) ∧
    commonDays (marchFirst (y + 1) - 1) < 365 * ((y : Int) + 1) := by
  decide +kernel

/-- The year of the era that a day of the era is in, and how many days of that year have passed. -/
theorem year_of_era {e : Int} (h0 : 0 ≤ e) (h1 : e < 146097) :
    ∃ y doy, commonDays e / 365 = y ∧ e = marchFirst y + doy ∧ 0 ≤ y ∧ y < 400 ∧ 0 ≤ doy ∧
      doy ≤ 365 ∧ (doy = 365 → (y + 1) % 4 = 0 ∧ ((y + 1) % 100 ≠ 0 ∨ (y + 1) % 400 = 0)) := by
  obtain ⟨y, hy⟩ : ∃ y, commonDays e / 365 = y := ⟨_, rfl⟩
  have hlo : commonDays 0 ≤ commonDays e := commonDays_mono h0
  have hhi : commonDays e ≤ commonDays 146096 := commonDays_mono (by omega)
  have h0' : commonDays 0 = 0 := by decide
  have h1' : commonDays 146096 = 145999 := by decide
  -- Before its year a day would have the common days of an earlier one.
  have begun : marchFirst y ≤ e := by
    refine Int.not_lt.1 fun hlt => ?_
    have hpos : 0 < y := by
      rcases Int.lt_or_le 0 y with h | h
      · exact h
      · simp only [marchFirst] at hlt
        omega
    have hb := (march_bounds (y - 1).toNat (by omega)).2
    have hcast : (((y - 1).toNat : Nat) : Int) + 1 = y := by omega
    have hm : commonDays e ≤ commonDays (marchFirst y - 1) := commonDays_mono (by omega)
    rw [hcast] at hb
    omega
  -- Past its year it would have those of a later one; the last year of the era has none after it.
  have going : y < 399 → e < marchFirst (y + 1) := by
    intro hy'
    refine Int.not_le.1 fun hge => ?_
    have hb := (march_bounds (y + 1).toNat (by omega)).1
    have hcast : (((y + 1).toNat : Nat) : Int) = y + 1 := by omega
    have hm : commonDays (marchFirst (y + 1)) ≤ commonDays e := commonDays_mono (by omega)
    rw [hcast] at hb
    omega
  have hy0 : 0 ≤ y := by omega
  have hy1 : y < 400 := by omega
  refine ⟨y, e - marchFirst y, hy, by omega, hy0, hy1, by omega, ?_, ?_⟩
  · simp only [marchFirst] at begun going ⊢
    omega
  · simp only [marchFirst] at begun going ⊢
    rcases Int.lt_or_le y 399 with h | h
    · have before := going h
      have four : (y + 1) / 4 = y / 4 ∧ (y + 1) % 4 ≠ 0 ∨
          (y + 1) / 4 = y / 4 + 1 ∧ (y + 1) % 4 = 0 := by omega
      have hundred : (y + 1) / 100 = y / 100 ∧ (y + 1) % 100 ≠ 0 ∨
          (y + 1) / 100 = y / 100 + 1 ∧ (y + 1) % 100 = 0 := by omega
      omega
    · omega

/-! ## Dates by era, year and day -/

/-- The date of a day of a March year, in an era. -/
def ofEra (era y doy : Int) : CivilDate :=
  let monthFromMarch := (5 * doy + 2) / 153
  let month := if monthFromMarch < 10 then monthFromMarch + 3 else monthFromMarch - 9
  ⟨y + era * 400 + (if month ≤ 2 then 1 else 0), month.toNat,
    (doy - (153 * monthFromMarch + 2) / 5 + 1).toNat⟩

/-- What a day number says of its date. -/
theorem ofDay_eq_ofEra (n : Int) : ∃ era y doy, ofDay n = ofEra era y doy ∧
    n + epochOffset = era * 146097 + (marchFirst y + doy) ∧ 0 ≤ y ∧ y < 400 ∧ 0 ≤ doy ∧
      doy ≤ 365 ∧ (doy = 365 → (y + 1) % 4 = 0 ∧ ((y + 1) % 100 ≠ 0 ∨ (y + 1) % 400 = 0)) := by
  obtain ⟨y, doy, hy, he, h⟩ :=
    year_of_era (e := n + epochOffset - (n + epochOffset) / 146097 * 146097)
      (by omega) (by omega)
  refine ⟨(n + epochOffset) / 146097, y, doy, ?_, by omega, h⟩
  have hdoy : n + epochOffset - (n + epochOffset) / 146097 * 146097
      - (365 * y + y / 4 - y / 100) = doy := by
    simp only [marchFirst] at he
    omega
  simp only [commonDays] at hy
  simp only [ofDay, ofEra, hy, hdoy]

/-- The month and the day of the month by the day of the March year. -/
theorem month_of_year {doy : Int} (h0 : 0 ≤ doy) (h1 : doy ≤ 365) :
    ∃ m day, (5 * doy + 2) / 153 = m ∧ doy = (153 * m + 2) / 5 + day - 1 ∧ 0 ≤ m ∧ m ≤ 11 ∧
      1 ≤ day ∧ day ≤ 31 ∧ (m = 1 ∨ m = 3 ∨ m = 6 ∨ m = 8 → day ≤ 30) ∧
      (m = 11 → day ≤ 29) ∧ (m = 11 → day = 29 → doy = 365) := by
  obtain ⟨m, hm⟩ : ∃ m, (5 * doy + 2) / 153 = m := ⟨_, rfl⟩
  refine ⟨m, doy - (153 * m + 2) / 5 + 1, hm, by omega, by omega, by omega, by omega, by omega,
    by omega, by omega, by omega⟩

/-- **A day number is that of its date.** -/
theorem toDay_ofDay (n : Int) : (ofDay n).toDay = n := by
  obtain ⟨era, y, doy, hd, hn, hy0, hy1, hdoy0, hdoy1, -⟩ := ofDay_eq_ofEra n
  obtain ⟨m, day, hm, hday, hm0, hm1, hd0, -⟩ := month_of_year hdoy0 hdoy1
  have hera : (y + era * 400) / 400 = era := by omega
  have hdayNat : (((doy - (153 * m + 2) / 5 + 1).toNat : Nat) : Int) = day := by omega
  rw [hd]
  simp only [ofEra, toDay, hm, hdayNat]
  -- March to December, then January and February, which belong to the next calendar year.
  simp only [marchFirst] at hn
  rcases Int.lt_or_le m 10 with h | h
  · have h2 : ¬ m + 3 ≤ 2 := by omega
    have h2' : ¬ (m + 3).toNat ≤ 2 := by omega
    have h3 : (((m + 3).toNat : Nat) : Int) - 3 = m := by omega
    simp only [if_pos h, if_neg h2, if_neg h2', h3, Int.add_zero, hera]
    omega
  · have h1 : ¬ m < 10 := by omega
    have h2 : m - 9 ≤ 2 := by omega
    have h2' : (m - 9).toNat ≤ 2 := by omega
    have h3 : (((m - 9).toNat : Nat) : Int) + 9 = m := by omega
    simp only [if_neg h1, if_pos h2, if_pos h2', h3, Int.add_sub_cancel, hera]
    omega

/-- The date of a day number is one that the calendar has. -/
theorem isValid_ofDay (n : Int) : (ofDay n).isValid = true := by
  obtain ⟨era, y, doy, hd, -, hy0, hy1, hdoy0, hdoy1, hleap⟩ := ofDay_eq_ofEra n
  obtain ⟨m, day, hm, hday, hm0, hm1, hd0, hd1, hshort, hfeb, hfeb29⟩ :=
    month_of_year hdoy0 hdoy1
  have hdayNat : (doy - (153 * m + 2) / 5 + 1).toNat = day.toNat := by omega
  rw [hd]
  simp only [ofEra, isValid, daysInMonth, isLeapYear, hm, hdayNat, Bool.and_eq_true,
    decide_eq_true_eq, Bool.or_eq_true, beq_iff_eq, bne_iff_ne]
  rcases Int.lt_or_le m 10 with h | h
  · have h2 : ¬ m + 3 ≤ 2 := by omega
    simp only [if_pos h, if_neg h2]
    refine ⟨⟨⟨by omega, by omega⟩, by omega⟩, ?_⟩
    rw [if_neg (by omega)]
    split <;> omega
  · have h1 : ¬ m < 10 := by omega
    have h2 : m - 9 ≤ 2 := by omega
    simp only [if_neg h1, if_pos h2]
    refine ⟨⟨⟨by omega, by omega⟩, by omega⟩, ?_⟩
    rcases Int.lt_or_le m 11 with hm' | hm'
    · rw [if_neg (by omega), if_neg (by omega)]
      omega
    · rw [if_pos (by omega)]
      split <;> omega

/-- The years of the instants. -/
theorem yearInRange_ofDay {n : Int} (h0 : firstDay ≤ n) (h1 : n ≤ lastDay) :
    Instant.yearInRange (ofDay n).year = true := by
  obtain ⟨era, y, doy, hd, hn, hy0, hy1, hdoy0, hdoy1, -⟩ := ofDay_eq_ofEra n
  obtain ⟨m, day, hm, -⟩ := month_of_year hdoy0 hdoy1
  rw [hd]
  simp only [ofEra, Instant.yearInRange, hm, Bool.and_eq_true, decide_eq_true_eq]
  simp only [marchFirst, epochOffset, firstDay, lastDay] at hn h0 h1
  -- Only the first and the last era are cut off, each within a year.
  have hera0 : -656 ≤ era := by omega
  have hera1 : era ≤ 655 := by omega
  have hlow : era = -656 → 256 ≤ y ∧ (y = 256 → 306 ≤ doy) := by omega
  have hhigh : era = 655 → y ≤ 142 ∧ (y = 142 → doy ≤ 305) := by omega
  split <;> split <;> omega

end Registrar.CivilDate
