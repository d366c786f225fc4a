/-
Days in filters and in changes. A configuration gives the same clock to date filters, which count days in milliseconds,
and to changes, which show dates of a calendar. Among the instants that the calendar reaches, those of one day are
exactly those that are shown with one date.
-/
import Dossier.Diff
import Dossier.Proofs.Calendar.FullDate
import Dossier.Proofs.Filter.Day

namespace Dossier

variable {d : Differ} {c : Config} {m : Int64}

/-! ## Dates -/

namespace Differ

/-- An instant that the calendar reaches. -/
def Reaches (m : Int64) : Prop := firstInstant ≤ m.toInt ∧ m.toInt ≤ lastInstant

instance (m : Int64) : Decidable (Reaches m) := inferInstanceAs (Decidable (_ ∧ _))

/-- A date of a year that the calendar has. -/
def InCalendar (d : Date) : Prop := -262143 ≤ d.year ∧ d.year ≤ 262142

instance (d : Date) : Decidable (InCalendar d) := inferInstanceAs (Decidable (_ ∧ _))

/-- The local date of an instant. -/
def dateOf (d : Differ) (m : Int64) : Date := (⟨m.toInt, d.utcOffsetSeconds⟩ : Moment).date

theorem renderDate_of_reaches (hoff : d.utcOffsetSeconds.natAbs < 86400) (hformat : d.dateFormat = "%Y-%m-%d")
    (h : Reaches m) : d.renderDate m = .ok (Pattern.fullDate (d.dateOf m)) := by
  have hin : ¬ (m.toInt < firstInstant ∨ lastInstant < m.toInt) := by
    unfold Reaches at h
    omega
  rw [renderDate, if_neg (Nat.not_le.2 hoff), if_neg hin, hformat, if_neg (by decide)]
  simp only [Pattern.format?_fullDate]
  rfl

theorem renderDate_of_not_reaches (hoff : d.utcOffsetSeconds.natAbs < 86400) (h : ¬ Reaches m) :
    d.renderDate m = .error (.conversion (.timestamp m)) := by
  have hout : m.toInt < firstInstant ∨ lastInstant < m.toInt := by
    unfold Reaches at h
    omega
  rw [renderDate, if_neg (Nat.not_le.2 hoff), if_pos hout]

end Differ

namespace Config

/-- The seconds of an offset that is less than a day fit into 32 bits. -/
theorem utcOffsetSeconds_ofConfig (hoff : c.utcOffsetMinutes.toInt.natAbs < 1440) :
    (Differ.ofConfig c).utcOffsetSeconds = c.utcOffsetMinutes.toInt * 60 := by
  show (c.utcOffsetMinutes * 60).toInt = _
  rw [Int32.toInt_mul, show (60 : Int32).toInt = 60 from rfl]
  exact Int.bmod_eq_of_le (by omega) (by omega)

theorem utcOffsetMillis_filterSettings (c : Config) :
    c.filterSettings.utcOffsetMillis = c.utcOffsetMinutes.toInt * 60000 := rfl

theorem natAbs_utcOffsetSeconds_lt (hoff : c.utcOffsetMinutes.toInt.natAbs < 1440) :
    (Differ.ofConfig c).utcOffsetSeconds.natAbs < 86400 := by
  rw [utcOffsetSeconds_ofConfig hoff]
  omega

/-- Both components count the same days. -/
theorem dateOf_ofConfig (hoff : c.utcOffsetMinutes.toInt.natAbs < 1440) (m : Int64) :
    (Differ.ofConfig c).dateOf m = Date.ofDayNumber (c.filterSettings.dayOf m.toInt) := by
  unfold Differ.dateOf Moment.date Moment.dayNumber Moment.localMillis FilterSettings.dayOf
  rw [utcOffsetSeconds_ofConfig hoff, utcOffsetMillis_filterSettings, Int.mul_assoc]
  rfl

theorem dayBounds_of_reaches (hoff : c.utcOffsetMinutes.toInt.natAbs < 1440) (h : Differ.Reaches m) :
    ∃ bounds, c.filterSettings.dayBounds m = .ok bounds := by
  refine FilterSettings.dayBounds_isOk_of_lt ?_ ?_
  · rw [utcOffsetMillis_filterSettings]
    omega
  · unfold Differ.Reaches Differ.firstInstant Differ.lastInstant at h
    omega

theorem render_of_reaches (hoff : c.utcOffsetMinutes.toInt.natAbs < 1440) (hformat : c.dateFormat = "%Y-%m-%d")
    (h : Differ.Reaches m) : (Differ.ofConfig c).render (.dateTime m) =
      .ok (some (Pattern.fullDate (Date.ofDayNumber (c.filterSettings.dayOf m.toInt)))) := by
  rw [Differ.render, Differ.renderDate_of_reaches (natAbs_utcOffsetSeconds_lt hoff) hformat h,
    dateOf_ofConfig hoff]
  rfl

theorem render_of_not_reaches (hoff : c.utcOffsetMinutes.toInt.natAbs < 1440) (h : ¬ Differ.Reaches m) :
    (Differ.ofConfig c).render (.dateTime m) = .error (.conversion (.timestamp m)) := by
  rw [Differ.render, Differ.renderDate_of_not_reaches (natAbs_utcOffsetSeconds_lt hoff) h]
  rfl

/-- With the date alone as pattern and a clock less than a day off, an instant that the calendar does not reach is not
shown. For all other ones there are an interval and a text, and two instants have the same interval if and only if they
have the same text. -/
theorem dayBounds_eq_iff_render_eq (c : Config) (hoff : c.utcOffsetMinutes.toInt.natAbs < 1440)
    (hformat : c.dateFormat = "%Y-%m-%d") :
    (∀ m, ¬ Differ.Reaches m → (Differ.ofConfig c).render (.dateTime m) = .error (.conversion (.timestamp m))) ∧
    ∀ a b, Differ.Reaches a → Differ.Reaches b → ∃ bounds bounds' text text',
      c.filterSettings.dayBounds a = .ok bounds ∧ c.filterSettings.dayBounds b = .ok bounds' ∧
      (Differ.ofConfig c).render (.dateTime a) = .ok (some text) ∧
      (Differ.ofConfig c).render (.dateTime b) = .ok (some text') ∧ (bounds = bounds' ↔ text = text') := by
  refine ⟨fun m => render_of_not_reaches hoff, fun a b ha hb => ?_⟩
  obtain ⟨bounds, hbounds⟩ := dayBounds_of_reaches hoff ha
  obtain ⟨bounds', hbounds'⟩ := dayBounds_of_reaches hoff hb
  refine ⟨bounds, bounds', _, _, hbounds, hbounds', render_of_reaches hoff hformat ha,
    render_of_reaches hoff hformat hb, ?_⟩
  rw [Pattern.fullDate_ofDayNumber_inj,
    (FilterSettings.isDay_of_dayBounds hbounds).eq_iff (FilterSettings.isDay_of_dayBounds hbounds')]

/-- A clock behind UTC. -/
def clockBehind (minutes : Int32) : Config := { utcOffsetMinutes := -minutes, dateFormat := "%Y-%m-%d" }

/-- An hour and a half behind UTC the last day of 1969 lasts from half past one to half past one. -/
theorem dayBounds_eq_iff_render_eq_behind : ∃ text text',
    (Differ.ofConfig (clockBehind 90)).render (.dateTime (-81000000)) = .ok (some text) ∧
    (Differ.ofConfig (clockBehind 90)).render (.dateTime 5399999) = .ok (some text) ∧
    (Differ.ofConfig (clockBehind 90)).render (.dateTime 5400000) = .ok (some text') ∧ text ≠ text' := by
  have hall := (dayBounds_eq_iff_render_eq (clockBehind 90) (by decide) rfl).2
  have hbounds : (clockBehind 90).filterSettings.dayBounds (-81000000) = .ok (-81000000, 5399999) := rfl
  have hbounds' : (clockBehind 90).filterSettings.dayBounds 5399999 = .ok (-81000000, 5399999) := rfl
  have hnext : (clockBehind 90).filterSettings.dayBounds 5400000 = .ok (5400000, 91799999) := rfl
  obtain ⟨_, _, text, last, hfirst, hlast, hstart, hend, hsame⟩ := hall (-81000000) 5399999 (by decide) (by decide)
  obtain ⟨_, _, first, text', hfirst', hlast', hstart', hafter, hother⟩ :=
    hall (-81000000) 5400000 (by decide) (by decide)
  cases hbounds.symm.trans hfirst
  cases hbounds'.symm.trans hlast
  cases hbounds.symm.trans hfirst'
  cases hnext.symm.trans hlast'
  cases hstart.symm.trans hstart'
  cases hsame.1 rfl
  exact ⟨text, text', hstart, hend, hafter, fun h => absurd (hother.2 h) (by decide)⟩

/-- An hour behind UTC the last day of the calendar goes on for an hour that is filtered by, but not shown. -/
theorem not_dayBounds_eq_iff_render_eq : ¬ ∀ (c : Config) (a b : Int64), c.utcOffsetMinutes.toInt.natAbs < 1440 →
    c.dateFormat = "%Y-%m-%d" → Differ.InCalendar ((Differ.ofConfig c).dateOf a) →
    Differ.InCalendar ((Differ.ofConfig c).dateOf b) →
    ((∃ bounds, c.filterSettings.dayBounds a = .ok bounds ∧ c.filterSettings.dayBounds b = .ok bounds) ↔
      ∃ text, (Differ.ofConfig c).render (.dateTime a) = .ok (some text) ∧
        (Differ.ofConfig c).render (.dateTime b) = .ok (some text)) := by
  intro h
  have hiff := h (clockBehind 60) 8210266876799999 8210266876800000 (by decide) rfl (by decide) (by decide)
  obtain ⟨text, -, htext⟩ := hiff.1 ⟨(8210266794000000, 8210266880399999), rfl, rfl⟩
  rw [render_of_not_reaches (by decide) (by decide)] at htext
  cases htext

end Config

end Dossier
