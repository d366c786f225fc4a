/-
Days and their dates. An era of 400 years consists of centuries, these of spans of four years, and spans of years; so
the date of a day is in the calendar, and the day is counted back from it. Different days have different dates.
-/
import Dossier.Calendar.Date

namespace Dossier.Date

/-! ## Days of an era -/

/-- A day of an era, given by its century, its span of four years, its year in the span and its day in the year. Only
the last year of a span may have a leap day, and in the last span of a century only if the century ends the era. -/
structure InEra (dayOfEra century span year day : Int) : Prop where
  century_mem : 0 ≤ century ∧ century ≤ 3
  span_mem : 0 ≤ span ∧ span ≤ 24
  year_mem : 0 ≤ year ∧ year ≤ 3
  day_mem : 0 ≤ day ∧ day ≤ 365
  leap : day = 365 → year = 3 ∧ (span < 24 ∨ century = 3)
  sum_eq : dayOfEra = 36524 * century + 1461 * span + 365 * year + day

variable {dayOfEra century span year day : Int}

theorem exists_inEra (h : 0 ≤ dayOfEra) (h' : dayOfEra < eraDays) :
    ∃ century span year day, InEra dayOfEra century span year day := by
  unfold eraDays at h'
  -- the last century, span and year take what is left over
  obtain ⟨century, hcentury⟩ : ∃ century, century = min 3 (dayOfEra / 36524) := ⟨_, rfl⟩
  obtain ⟨rest, hrest⟩ : ∃ rest, rest = dayOfEra - 36524 * century := ⟨_, rfl⟩
  obtain ⟨year, hyear⟩ : ∃ year, year = min 3 (rest % 1461 / 365) := ⟨_, rfl⟩
  exact ⟨century, rest / 1461, year, rest % 1461 - 365 * year, by omega, by omega, by omega, by omega, by omega,
    by omega⟩

namespace InEra

variable (h : InEra dayOfEra century span year day)

include h

theorem yearOfEra_eq : yearOfEra dayOfEra = 100 * century + 4 * span + year := by
  obtain ⟨hcentury, hspan, hyear, hday, hleap, hsum⟩ := h
  have hcenturies : dayOfEra / 36524 - dayOfEra / 146096 = century := by
    by_cases hlast : day = 365 ∧ span = 24
    · omega
    · have hcentury' : dayOfEra / 36524 = century := by omega
      have hera : dayOfEra / 146096 = 0 := by omega
      omega
  -- one leap day for each span that is over, and one for the span itself on its last day
  obtain ⟨leapDays, hleapDays⟩ : ∃ leapDays, leapDays = dayOfEra / 1460 - 25 * century - span := ⟨_, rfl⟩
  have hleapDays' : 0 ≤ day - leapDays ∧ day - leapDays ≤ 364 := by
    by_cases hlast : day = 365 <;> omega
  unfold yearOfEra
  omega

theorem dayOfYear_eq :
    dayOfEra - (365 * yearOfEra dayOfEra + yearOfEra dayOfEra / 4 - yearOfEra dayOfEra / 100) = day := by
  rw [h.yearOfEra_eq]
  obtain ⟨hcentury, hspan, hyear, hday, hleap, hsum⟩ := h
  omega

end InEra

/-! ## Dates of days -/

/-- A date by the year that begins in March, the month from March on and the day of the month from zero on. -/
theorem ofDayNumber_eq (n : Int) : ∃ year month day : Int, (0 ≤ month ∧ month ≤ 11) ∧ (0 ≤ day ∧ day ≤ 30) ∧
    n + epochShift = 365 * year + year / 4 - year / 100 + year / 400 + (153 * month + 2) / 5 + day ∧
    ofDayNumber n = ⟨if month < 10 then year else year + 1, (if month < 10 then month + 3 else month - 9).toNat,
      (day + 1).toNat⟩ := by
  have hpos : 0 ≤ (n + epochShift) % eraDays := Int.emod_nonneg _ (by decide)
  have hlt : (n + epochShift) % eraDays < eraDays := Int.emod_lt_of_pos _ (by decide)
  obtain ⟨century, span, year, dayOfYear, h⟩ := exists_inEra hpos hlt
  obtain ⟨era, hera⟩ : ∃ era, era = (n + epochShift) / eraDays := ⟨_, rfl⟩
  obtain ⟨month, hmonth⟩ : ∃ month, month = (5 * dayOfYear + 2) / 153 := ⟨_, rfl⟩
  have hday := h.day_mem
  refine ⟨100 * century + 4 * span + year + era * 400, month, dayOfYear - (153 * month + 2) / 5, by omega, by omega,
    ?_, ?_⟩
  · obtain ⟨hcentury, hspan, hyear, -, hleap, hsum⟩ := h
    have hspans : (100 * century + 4 * span + year + era * 400) / 4 = 100 * era + 25 * century + span := by omega
    have hcenturies : (100 * century + 4 * span + year + era * 400) / 100 = 4 * era + century := by omega
    have heras : (100 * century + 4 * span + year + era * 400) / 400 = era := by omega
    rw [hspans, hcenturies, heras]
    unfold eraDays at *
    omega
  · unfold ofDayNumber
    simp only [h.dayOfYear_eq]
    rw [← hmonth, ← hera, h.yearOfEra_eq]
    -- January and February are the last months, and belong to the next year
    by_cases hbefore : month < 10
    · have hlate : ¬ month + 3 ≤ 2 := by omega
      simp [hbefore, hlate]
    · have hearly : month - 9 ≤ 2 := by omega
      simp [hbefore, hearly]

/-- The date of a day is in the calendar. -/
theorem dayNumber_ofDayNumber (n : Int) : (ofDayNumber n).dayNumber = n := by
  obtain ⟨year, month, day, hmonth, hday, hsum, hdate⟩ := ofDayNumber_eq n
  rw [hdate]
  unfold dayNumber eraDays
  by_cases hbefore : month < 10
  · have hlate : ¬ (month + 3).toNat ≤ 2 := by omega
    simp only [if_pos hbefore, if_neg hlate]
    omega
  · have hearly : (month - 9).toNat ≤ 2 := by omega
    simp only [if_neg hbefore, if_pos hearly]
    omega

theorem ofDayNumber_inj {m n : Int} : ofDayNumber m = ofDayNumber n ↔ m = n :=
  ⟨fun h => by rw [← dayNumber_ofDayNumber m, h, dayNumber_ofDayNumber], congrArg ofDayNumber⟩

theorem month_ofDayNumber_le (n : Int) : (ofDayNumber n).month ≤ 12 := by
  obtain ⟨year, month, day, hmonth, -, -, hdate⟩ := ofDayNumber_eq n
  rw [hdate]
  simp only
  split <;> omega

theorem day_ofDayNumber_le (n : Int) : (ofDayNumber n).day ≤ 31 := by
  obtain ⟨year, month, day, -, hday, -, hdate⟩ := ofDayNumber_eq n
  rw [hdate]
  simp only
  omega

end Dossier.Date
