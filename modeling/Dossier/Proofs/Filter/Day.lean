/-
The calendar days that date filters are about. At a fixed offset the days divide all of time into intervals of one
length. What is answered for an instant is its day, and there is an answer exactly for the days that fit 64 bits: at an
offset of at most 14 hours none of the numbers on the way leaves 64 bits when both ends of the day are inside.
-/
import Dossier.Filter.Day

namespace Dossier

theorem Bounded.fitsInt64_iff {i : Int} :
    fitsInt64 i = true ↔ -0x8000000000000000 ≤ i ∧ i ≤ 0x7FFFFFFFFFFFFFFF := by
  unfold fitsInt64
  rw [Bool.and_eq_true, decide_eq_true_iff, decide_eq_true_iff]

theorem Bounded.fitsInt64_toInt (i : Int64) : fitsInt64 i.toInt = true := by
  have hlow := Int64.le_toInt i
  have hhigh := Int64.toInt_lt i
  rw [fitsInt64_iff]
  omega

theorem Bounded.toInt_ofInt {i : Int} (h : fitsInt64 i = true) : (Int64.ofInt i).toInt = i := by
  rw [fitsInt64_iff] at h
  exact Int64.toInt_ofInt_of_le (by omega) (by omega)

theorem Bounded.checked?_eq_some_iff {i j : Int} : checked? i = some j ↔ fitsInt64 i = true ∧ i = j := by
  unfold checked?
  split <;> simp_all

namespace FilterSettings

variable {settings : FilterSettings} {m t first last : Int64} {day : Int}

/-! ## Days -/

/-- The calendar day of an instant on the reference clock, counted from 1970-01-01. -/
def dayOf (settings : FilterSettings) (millis : Int) : Int := (millis + settings.utcOffsetMillis) / dayMillis

/-- The first instant of a day. -/
def dayStart (settings : FilterSettings) (day : Int) : Int := day * dayMillis - settings.utcOffsetMillis

/-- The last instant of a day. -/
def dayEnd (settings : FilterSettings) (day : Int) : Int := settings.dayStart day + (dayMillis - 1)

theorem dayOf_lt_iff {millis : Int} : settings.dayOf millis < day ↔ millis < settings.dayStart day := by
  unfold dayOf dayStart dayMillis
  omega

theorem lt_dayOf_iff {millis : Int} : day < settings.dayOf millis ↔ settings.dayEnd day < millis := by
  unfold dayOf dayEnd dayStart dayMillis
  omega

theorem le_dayOf_iff {millis : Int} : day ≤ settings.dayOf millis ↔ settings.dayStart day ≤ millis := by
  rw [← Int.not_lt, dayOf_lt_iff, Int.not_lt]

theorem dayOf_le_iff {millis : Int} : settings.dayOf millis ≤ day ↔ millis ≤ settings.dayEnd day := by
  rw [← Int.not_lt, lt_dayOf_iff, Int.not_lt]

theorem dayOf_eq_iff {millis : Int} :
    settings.dayOf millis = day ↔ settings.dayStart day ≤ millis ∧ millis ≤ settings.dayEnd day := by
  rw [← le_dayOf_iff, ← dayOf_le_iff]
  omega

/-- A day all instants of which fit 64 bits. -/
def Representable (settings : FilterSettings) (day : Int) : Prop :=
  ∀ millis, settings.dayOf millis = day → Bounded.fitsInt64 millis = true

theorem representable_iff : settings.Representable day ↔
    Bounded.fitsInt64 (settings.dayStart day) = true ∧ Bounded.fitsInt64 (settings.dayEnd day) = true := by
  have hlength : settings.dayStart day ≤ settings.dayEnd day := by
    unfold dayEnd dayMillis
    omega
  constructor
  · intro h
    exact ⟨h _ (dayOf_eq_iff.2 ⟨Int.le_refl _, hlength⟩), h _ (dayOf_eq_iff.2 ⟨hlength, Int.le_refl _⟩)⟩
  · rintro ⟨hstart, hend⟩ millis hday
    rw [dayOf_eq_iff] at hday
    rw [Bounded.fitsInt64_iff] at *
    omega

/-! ## Answers -/

theorem dayBounds?_eq_some_iff {millis a b : Int} : settings.dayBounds? millis = some (a, b) ↔
    (Bounded.fitsInt64 (millis + settings.utcOffsetMillis) = true ∧
      Bounded.fitsInt64 (settings.dayOf millis * dayMillis) = true ∧
        settings.Representable (settings.dayOf millis)) ∧
    a = settings.dayStart (settings.dayOf millis) ∧ b = settings.dayEnd (settings.dayOf millis) := by
  rw [representable_iff]
  constructor
  · intro h
    obtain ⟨localMillis, hl, h⟩ := Option.bind_eq_some_iff.1 h
    obtain ⟨hlocal, rfl⟩ := Bounded.checked?_eq_some_iff.1 hl
    obtain ⟨localStart, hs, h⟩ := Option.bind_eq_some_iff.1 h
    obtain ⟨hmidnight, rfl⟩ := Bounded.checked?_eq_some_iff.1 hs
    obtain ⟨start, hs, h⟩ := Option.bind_eq_some_iff.1 h
    obtain ⟨hstart, rfl⟩ := Bounded.checked?_eq_some_iff.1 hs
    obtain ⟨stop, hs, h⟩ := Option.bind_eq_some_iff.1 h
    obtain ⟨hstop, rfl⟩ := Bounded.checked?_eq_some_iff.1 hs
    cases h
    exact ⟨⟨hlocal, hmidnight, hstart, hstop⟩, rfl, rfl⟩
  · rintro ⟨⟨hlocal, hmidnight, hstart, hend⟩, rfl, rfl⟩
    have checked {i : Int} (h : Bounded.fitsInt64 i = true) : Bounded.checked? i = some i :=
      Bounded.checked?_eq_some_iff.2 ⟨h, rfl⟩
    unfold dayBounds?
    rw [checked hlocal]
    change (Bounded.checked? (settings.dayOf millis * dayMillis)).bind _ = _
    rw [checked hmidnight]
    change (Bounded.checked? (settings.dayStart (settings.dayOf millis))).bind _ = _
    rw [checked hstart]
    change (Bounded.checked? (settings.dayEnd (settings.dayOf millis))).bind _ = _
    rw [checked hend]
    rfl

/-- The first and the last instant of a day, as words. -/
structure IsDay (settings : FilterSettings) (day : Int) (first last : Int64) : Prop where
  first_eq : first.toInt = settings.dayStart day
  last_eq : last.toInt = settings.dayEnd day

/-- An answer is the day of the instant, whatever the offset. -/
theorem isDay_of_dayBounds (h : settings.dayBounds m = .ok (first, last)) :
    settings.IsDay (settings.dayOf m.toInt) first last := by
  unfold dayBounds at h
  split at h
  · rename_i start stop hs
    cases h
    obtain ⟨⟨-, -, hfits⟩, rfl, rfl⟩ := dayBounds?_eq_some_iff.1 hs
    obtain ⟨hstart, hend⟩ := representable_iff.1 hfits
    exact ⟨Bounded.toInt_ofInt hstart, Bounded.toInt_ofInt hend⟩
  · cases h

theorem IsDay.representable (h : settings.IsDay day first last) : settings.Representable day := by
  rw [representable_iff, ← h.first_eq, ← h.last_eq]
  exact ⟨Bounded.fitsInt64_toInt first, Bounded.fitsInt64_toInt last⟩

/-- The instants of a day are those from its first to its last. -/
theorem IsDay.mem_iff (h : settings.IsDay day first last) {millis : Int} :
    settings.dayOf millis = day ↔ first.toInt ≤ millis ∧ millis ≤ last.toInt := by
  rw [dayOf_eq_iff, h.first_eq, h.last_eq]

theorem IsDay.unique {first' last' : Int64} (h : settings.IsDay day first last) (h' : settings.IsDay day first' last') :
    first' = first ∧ last' = last :=
  ⟨Int64.toInt_inj.1 (h'.first_eq.trans h.first_eq.symm), Int64.toInt_inj.1 (h'.last_eq.trans h.last_eq.symm)⟩

theorem dayStart_inj {day' : Int} (h : settings.dayStart day = settings.dayStart day') : day = day' := by
  unfold dayStart dayMillis at h
  omega

/-- Different days have different answers. -/
theorem IsDay.eq_iff {day' : Int} {answer answer' : Int64 × Int64} (h : settings.IsDay day answer.1 answer.2)
    (h' : settings.IsDay day' answer'.1 answer'.2) : answer = answer' ↔ day = day' := by
  constructor
  · rintro rfl
    exact dayStart_inj (h.first_eq.symm.trans h'.first_eq)
  · rintro rfl
    exact Prod.ext (h'.unique h).1 (h'.unique h).2

/-- An earlier day is over before a later one begins. -/
theorem IsDay.lt {day' : Int} {first' last' : Int64} (h : settings.IsDay day first last)
    (h' : settings.IsDay day' first' last') (hlt : day < day') : last < first' := by
  rw [Int64.lt_iff_toInt_lt, h.last_eq, h'.first_eq]
  unfold dayEnd dayStart dayMillis
  omega

/-! ## Failures -/

/-- A clock that is at most 14 hours ahead or behind. -/
def OffsetWithinHours (settings : FilterSettings) : Prop := settings.utcOffsetMillis.natAbs ≤ 14 * 3600000

instance (settings : FilterSettings) : Decidable settings.OffsetWithinHours := inferInstanceAs (Decidable (_ ≤ _))

theorem dayBounds_isOk (h : Bounded.fitsInt64 (m.toInt + settings.utcOffsetMillis) = true ∧
    Bounded.fitsInt64 (settings.dayOf m.toInt * dayMillis) = true ∧
    settings.Representable (settings.dayOf m.toInt)) : ∃ answer, settings.dayBounds m = .ok answer := by
  have hs := dayBounds?_eq_some_iff.2 ⟨h, rfl, rfl⟩
  exact ⟨_, by rw [dayBounds, hs]⟩

/-- When the day of an instant fits 64 bits, so do the local time of the instant and its local midnight. -/
theorem dayBounds_isOk_iff (hoff : settings.OffsetWithinHours) :
    (∃ answer, settings.dayBounds m = .ok answer) ↔ settings.Representable (settings.dayOf m.toInt) := by
  constructor
  · rintro ⟨⟨first, last⟩, h⟩
    exact (isDay_of_dayBounds h).representable
  · intro h
    have hm := Bounded.fitsInt64_toInt m
    have hfits := representable_iff.1 h
    -- Only on the days of the least and of the largest word can a local midnight or a local time leave 64 bits. Both
    -- days reach out of 64 bits by 60424192 milliseconds, and an offset of at most 14 hours does not move them inside.
    have hway : Bounded.fitsInt64 (m.toInt + settings.utcOffsetMillis) = true ∧
        Bounded.fitsInt64 (settings.dayOf m.toInt * dayMillis) = true := by
      unfold OffsetWithinHours at hoff
      simp only [Bounded.fitsInt64_iff, dayEnd, dayStart, dayOf, dayMillis] at *
      omega
    exact dayBounds_isOk ⟨hway.1, hway.2, h⟩

/-- Far from the ends of 64 bits no number on the way leaves them. -/
theorem dayBounds_isOk_of_lt (hoff : settings.utcOffsetMillis.natAbs < 0x1000000000000000)
    (hm : m.toInt.natAbs < 0x1000000000000000) : ∃ answer, settings.dayBounds m = .ok answer := by
  refine dayBounds_isOk ?_
  rw [representable_iff]
  simp only [Bounded.fitsInt64_iff, dayEnd, dayStart, dayOf, dayMillis]
  omega

/-- The one fault there is. -/
theorem dayBounds_error {fault : Fault} (h : settings.dayBounds m = .error fault) :
    fault = .validation (.dateOutOfRange m) := by
  unfold dayBounds at h
  split at h
  · cases h
  · cases h
    rfl

/-- The answers partition time. There is none for an instant exactly if its day, as an interval of unbounded numbers,
does not fit 64 bits. Otherwise the answer is that interval: it is a day long from a local midnight on, it holds the
instant, and it is the answer for every instant in it; so two answers are the same interval or disjoint ones. -/
theorem dayBounds_partition (settings : FilterSettings) (hoff : settings.OffsetWithinHours) (m : Int64) :
    ((∃ fault, settings.dayBounds m = .error fault) ↔ ¬ settings.Representable (settings.dayOf m.toInt)) ∧
    (∀ fault, settings.dayBounds m = .error fault → fault = .validation (.dateOutOfRange m)) ∧
    ∀ first last, settings.dayBounds m = .ok (first, last) →
      (∀ millis, settings.dayOf millis = settings.dayOf m.toInt ↔ first.toInt ≤ millis ∧ millis ≤ last.toInt) ∧
      (first ≤ m ∧ m ≤ last) ∧ last.toInt = first.toInt + 86399999 ∧
      (first.toInt + settings.utcOffsetMillis) % 86400000 = 0 ∧
      (∀ t, first ≤ t → t ≤ last → settings.dayBounds t = .ok (first, last)) ∧
      ∀ t first' last', settings.dayBounds t = .ok (first', last') →
        (first' = first ∧ last' = last) ∨ last < first' ∨ last' < first := by
  refine ⟨?_, fun fault => dayBounds_error, fun first last h => ?_⟩
  · rw [← dayBounds_isOk_iff hoff]
    cases settings.dayBounds m <;> simp
  have hday := isDay_of_dayBounds h
  have hm := hday.mem_iff.1 rfl
  refine ⟨fun millis => hday.mem_iff, ⟨Int64.le_iff_toInt_le.2 hm.1, Int64.le_iff_toInt_le.2 hm.2⟩, ?_, ?_,
    fun t hfirst hlast => ?_, fun t first' last' h' => ?_⟩
  · rw [hday.last_eq, hday.first_eq]
    unfold dayEnd dayMillis
    omega
  · rw [hday.first_eq]
    unfold dayStart dayMillis
    omega
  · have ht : settings.dayOf t.toInt = settings.dayOf m.toInt :=
      hday.mem_iff.2 ⟨Int64.le_iff_toInt_le.1 hfirst, Int64.le_iff_toInt_le.1 hlast⟩
    obtain ⟨⟨first', last'⟩, h'⟩ := (dayBounds_isOk_iff hoff).2 (ht ▸ hday.representable)
    have hday' := isDay_of_dayBounds h'
    rw [ht] at hday'
    obtain ⟨rfl, rfl⟩ := hday.unique hday'
    exact h'
  · have hday' := isDay_of_dayBounds h'
    rcases Int.lt_trichotomy (settings.dayOf m.toInt) (settings.dayOf t.toInt) with hlt | heq | hgt
    · exact .inr (.inl (hday.lt hday' hlt))
    · exact .inl (hday.unique (heq ▸ hday'))
    · exact .inr (.inr (hday'.lt hday hgt))

/-- A clock fourteen hours ahead of UTC. -/
def farAhead : FilterSettings := ofMinutes 840 "(Blanks)"

/-- There the first day of 1970 begins at ten in the morning of the day before. -/
theorem dayBounds_partition_farAhead : farAhead.OffsetWithinHours ∧
    farAhead.dayBounds (-1) = .ok (-50400000, 35999999) ∧ farAhead.dayBounds 35999999 = .ok (-50400000, 35999999) ∧
    ¬ farAhead.Representable (farAhead.dayOf Int64.maxValue.toInt) := by
  have hoff : farAhead.OffsetWithinHours := by decide
  have h : farAhead.dayBounds (-1) = .ok (-50400000, 35999999) := rfl
  obtain ⟨-, -, -, -, hsame, -⟩ := (dayBounds_partition _ hoff (-1)).2.2 _ _ h
  have hout : ∃ fault, farAhead.dayBounds Int64.maxValue = .error fault := ⟨_, rfl⟩
  exact ⟨hoff, h, hsame 35999999 (by decide) (by decide), (dayBounds_partition _ hoff Int64.maxValue).1.1 hout⟩

end FilterSettings

end Dossier
