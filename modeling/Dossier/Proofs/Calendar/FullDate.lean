/-
Dates written in full, as year, month and day. The number can be read back from each of the three parts, and the sign
of the year as well, so days that are written alike are the same.
-/
import Dossier.Calendar.Pattern
import Dossier.Proofs.Calendar.Date

namespace Dossier

/-! ## Padded numbers -/

theorem toList_pushn (s : String) (c : Char) : ∀ n, (s.pushn c n).toList = s.toList ++ List.replicate n c
  | 0 => by rw [List.replicate_zero, List.append_nil]; rfl
  | n + 1 => by
    rw [List.replicate_succ', ← List.append_assoc, ← toList_pushn s c n, ← String.toList_push]
    rfl

theorem toList_zeroPadded (width n : Nat) : (zeroPadded width n).toList =
    List.replicate (width - (toString n).length) '0' ++ Nat.toDigits 10 n := by
  rw [zeroPadded, padLeft, String.toList_append, toList_pushn, String.toList_empty, List.nil_append,
    Nat.toString_eq_repr, Nat.toList_repr]

theorem isDigit_zeroPadded {width n : Nat} {c : Char} (h : c ∈ (zeroPadded width n).toList) : c.isDigit = true := by
  rw [toList_zeroPadded, List.mem_append] at h
  rcases h with h | h
  · rw [List.eq_of_mem_replicate h]
    rfl
  · exact Nat.isDigit_of_mem_toDigits (by decide) (by decide) h

/-- Zeros in front do not change the number that digits are read as. -/
theorem ofDigitChars_zeroPadded (width n : Nat) : Nat.ofDigitChars 10 (zeroPadded width n).toList 0 = n := by
  rw [toList_zeroPadded, Nat.ofDigitChars_append, Nat.ofDigitChars_replicate_zero, Nat.mul_zero,
    Nat.ofDigitChars_ten_toDigits]

namespace Pattern

/-! ## Parts of dates -/

theorem toList_twoDigits {n : Nat} (h : n < 100) :
    (twoDigits .zero n).toList = [(n / 10).digitChar, (n % 10).digitChar] := by
  have hdigit : ∀ d < 10, Char.ofNat ('0'.toNat + d) = d.digitChar := by decide
  have htens : n / 10 < 10 := by omega
  have hones : n % 10 < 10 := by omega
  have hparts : twoDigits .zero n =
    (Char.ofNat ('0'.toNat + n / 10)).toString ++ (Char.ofNat ('0'.toNat + n % 10)).toString := rfl
  rw [hparts, hdigit _ htens, hdigit _ hones]
  simp

theorem ofDigitChars_twoDigits {n : Nat} (h : n < 100) : Nat.ofDigitChars 10 (twoDigits .zero n).toList 0 = n := by
  rw [toList_twoDigits h, Nat.ofDigitChars_cons_digitChar_of_lt_ten (by omega),
    Nat.ofDigitChars_cons_digitChar_of_lt_ten (by omega), Nat.ofDigitChars_nil]
  omega

/-- Where a negative number has its sign forced, the sign is not counted as one of the digits. -/
theorem wideNumber_zero {width : Nat} {forceSign : Bool} {i : Int} (h : i < 0 → forceSign = true) :
    wideNumber .zero width forceSign i = signed forceSign (zeroPadded width) i := by
  have hsign : (if i < 0 then "-" else if forceSign then "+" else "").length = if forceSign then 1 else 0 := by
    by_cases hneg : i < 0
    · rw [if_pos hneg, h hneg]
      rfl
    · rw [if_neg hneg]
      cases forceSign <;> rfl
  have hplaces : (if forceSign then width + 1 else width) -
      ((signed forceSign toString i).length - (toString i.natAbs).length) = width := by
    rw [signed, String.length_append, Nat.add_sub_cancel, hsign]
    split <;> rfl
  have hwide : wideNumber .zero width forceSign i = signed forceSign (zeroPadded
      ((if forceSign then width + 1 else width) -
        ((signed forceSign toString i).length - (toString i.natAbs).length))) i := rfl
  rw [hwide, hplaces]

/-- A year has at least four digits, and a sign when they are not enough. -/
theorem toList_yearText (year : Int) : (yearText .zero year).toList =
    (if year < 0 then ['-'] else if 10000 ≤ year then ['+'] else []) ++ (zeroPadded 4 year.natAbs).toList := by
  unfold yearText
  rw [wideNumber_zero (by simp +contextual), signed, String.toList_append]
  by_cases hneg : year < 0
  · simp [hneg]
  · by_cases hlong : 10000 ≤ year <;> simp [hneg, hlong]

/-- The number and the sign of a year can be read in its text. -/
theorem natAbs_of_yearText (year : Int) :
    Nat.ofDigitChars 10 ((yearText .zero year).toList.filter Char.isDigit) 0 = year.natAbs := by
  have hsign : (if year < 0 then ['-'] else if 10000 ≤ year then ['+'] else []).filter Char.isDigit = [] := by
    split
    · rfl
    · split <;> rfl
  rw [toList_yearText, List.filter_append, hsign, List.nil_append, List.filter_eq_self.2 fun c => isDigit_zeroPadded,
    ofDigitChars_zeroPadded]

theorem minus_mem_yearText_iff (year : Int) : '-' ∈ (yearText .zero year).toList ↔ year < 0 := by
  have hdigits : '-' ∉ (zeroPadded 4 year.natAbs).toList := fun h => absurd (isDigit_zeroPadded h) (by decide)
  rw [toList_yearText, List.mem_append, or_iff_left hdigits]
  split
  · simpa
  · split <;> simpa using by omega

theorem yearText_inj {year year' : Int} (h : yearText .zero year = yearText .zero year') : year = year' := by
  have habs := natAbs_of_yearText year
  have hsign := minus_mem_yearText_iff year
  rw [h, natAbs_of_yearText] at habs
  rw [h, minus_mem_yearText_iff] at hsign
  omega

/-! ## Whole dates -/

/-- The text of a date. -/
def fullDate (d : Date) : String :=
  yearText .zero d.year ++ "-" ++ twoDigits .zero d.month ++ "-" ++ twoDigits .zero d.day

theorem format?_fullDate (m : Moment) : format? "%Y-%m-%d" m = some (fullDate m.date) := by
  have hparse : parse? "%Y-%m-%d".toList = some [.number .year .zero, .literal '-', .number .month .zero, .literal '-',
    .number .day .zero] := by decide
  rw [format?, hparse, Option.map_some]
  simp [String.join, Piece.write, numberText, fullDate]

theorem toList_fullDate (d : Date) : (fullDate d).toList = (yearText .zero d.year).toList ++
    ('-' :: (twoDigits .zero d.month).toList ++ '-' :: (twoDigits .zero d.day).toList) := by
  simp [fullDate]

theorem twoDigits_inj {m n : Nat} (hm : m < 100) (hn : n < 100)
    (h : (twoDigits .zero m).toList = (twoDigits .zero n).toList) : m = n := by
  rw [← ofDigitChars_twoDigits hm, h, ofDigitChars_twoDigits hn]

/-- Months and days have a fixed width, so the year is what stands before them. -/
theorem fullDate_inj {d d' : Date} (hmonth : d.month < 100) (hday : d.day < 100) (hmonth' : d'.month < 100)
    (hday' : d'.day < 100) (h : fullDate d = fullDate d') : d = d' := by
  have hlist := congrArg String.toList h
  rw [toList_fullDate, toList_fullDate] at hlist
  obtain ⟨hyear, hrest⟩ := List.append_inj' hlist (by simp [toList_twoDigits, *])
  obtain ⟨hmonths, hdays⟩ := List.append_inj hrest (by simp [toList_twoDigits, *])
  rw [List.cons.injEq] at hmonths hdays
  have heq := yearText_inj (String.toList_inj.1 hyear)
  have heq' := twoDigits_inj hmonth hmonth' hmonths.2
  have heq'' := twoDigits_inj hday hday' hdays.2
  cases d
  cases d'
  simp_all

/-- Different days have different dates in full. -/
theorem fullDate_ofDayNumber_inj {m n : Int} :
    fullDate (Date.ofDayNumber m) = fullDate (Date.ofDayNumber n) ↔ m = n := by
  have hmonth (n : Int) := Nat.lt_of_le_of_lt (Date.month_ofDayNumber_le n) (by decide : 12 < 100)
  have hday (n : Int) := Nat.lt_of_le_of_lt (Date.day_ofDayNumber_le n) (by decide : 31 < 100)
  refine ⟨fun h => ?_, fun h => by rw [h]⟩
  exact Date.ofDayNumber_inj.1 (fullDate_inj (hmonth m) (hday m) (hmonth n) (hday n) h)

end Pattern

end Dossier
