import Gazetteer.Instant.Clock
import Gazetteer.Proofs.Instant.ReadBack

/-!
# What a clock in a zone shows

Days are counted from the first of the year 0 on, so the date after another has the next number.
The date and the clock time in a zone are those that come after the ones in UTC by as many seconds
as the zone is ahead, whether this is another day or not.

    dayNumber (nextDay ..) = dayNumber .. + 1                                 (dayNumber_nextDay)
    dayNumber (previousDay ..) = dayNumber .. - 1                         (dayNumber_previousDay)
    the text of t in a zone shows t in the zone                                 (clockText_shows)
-/

namespace Gazetteer

namespace Instant

/-! ## The number of a day -/

theorem daysBeforeYear_succ (year : Int) :
    daysBeforeYear (year + 1) = daysBeforeYear year + (if isLeapYear year then 366 else 365) := by
  unfold daysBeforeYear isLeapYear
  simp only [Bool.and_eq_true, Bool.or_eq_true, beq_iff_eq, bne_iff_ne]
  split <;> omega

theorem daysBeforeMonth_succ (year : Int) (month : Nat) :
    daysBeforeMonth year (month + 1) = daysBeforeMonth year month + daysInMonth year month := by
  simp [daysBeforeMonth, List.range_succ]

/-- The months make the year. -/
theorem daysBeforeMonth_thirteen (year : Int) :
    (daysBeforeMonth year 13 : Int) = if isLeapYear year then 366 else 365 := by
  simp only [daysBeforeMonth_succ, daysInMonth]
  cases isLeapYear year <;> rfl

theorem month_of_day {year : Int} {month day : Nat} (h : 1 ≤ day ∧ day ≤ daysInMonth year month) :
    1 ≤ month ∧ month ≤ 12 := by
  unfold daysInMonth at h
  split at h
  all_goals omega

theorem one_le_daysInMonth (year : Int) {month : Nat} (h : 1 ≤ month ∧ month ≤ 12) :
    1 ≤ daysInMonth year month := by
  unfold daysInMonth
  split <;> grind

/-- A date exists and has a number. -/
def IsDay (n : Int) (date : Int × Nat × Nat) : Prop :=
  (1 ≤ date.2.2 ∧ date.2.2 ≤ daysInMonth date.1 date.2.1) ∧ dayNumber date.1 date.2.1 date.2.2 = n

theorem isDay_mk {n year : Int} {month day : Nat} (hfirst : 1 ≤ day)
    (hlast : day ≤ daysInMonth year month)
    (hnumber : daysBeforeYear year + daysBeforeMonth year month + day = n) :
    IsDay n (year, month, day) := ⟨⟨hfirst, hlast⟩, hnumber⟩

theorem dayNumber_nextDay {year : Int} {month day : Nat}
    (h : 1 ≤ day ∧ day ≤ daysInMonth year month) :
    IsDay (dayNumber year month day + 1) (nextDay year month day) := by
  obtain ⟨hfirst, hlast⟩ := month_of_day h
  have hmonth := daysBeforeMonth_succ year month
  unfold nextDay dayNumber
  split
  · next hday => exact isDay_mk (by omega) hday (by omega)
  split
  · next hnext =>
    exact isDay_mk (Nat.le_refl 1) (one_le_daysInMonth year ⟨by omega, by omega⟩) (by omega)
  · -- the last of December
    obtain rfl : month = 12 := by omega
    have hyear := daysBeforeYear_succ year
    have hthirteen := daysBeforeMonth_thirteen year
    rw [daysBeforeMonth_succ] at hthirteen
    have hdecember : daysInMonth year 12 = 31 := rfl
    have hzero : daysBeforeMonth (year + 1) 1 = 0 := rfl
    exact isDay_mk (Nat.le_refl 1) (one_le_daysInMonth _ (by decide)) (by omega)

theorem dayNumber_previousDay {year : Int} {month day : Nat}
    (h : 1 ≤ day ∧ day ≤ daysInMonth year month) :
    IsDay (dayNumber year month day - 1) (previousDay year month day) := by
  obtain ⟨hfirst, hlast⟩ := month_of_day h
  unfold previousDay dayNumber
  split
  · next hday => exact isDay_mk (by omega) (by omega) (by omega)
  split
  · next hmonth =>
    obtain ⟨before, rfl⟩ : ∃ n, month = n + 1 := ⟨month - 1, by omega⟩
    have hbefore := daysBeforeMonth_succ year before
    rw [Nat.add_sub_cancel]
    exact isDay_mk (one_le_daysInMonth year ⟨by omega, by omega⟩) (Nat.le_refl _) (by omega)
  · -- the first of January
    obtain rfl : month = 1 := by omega
    have hyear := daysBeforeYear_succ (year - 1)
    have hthirteen := daysBeforeMonth_thirteen (year - 1)
    rw [daysBeforeMonth_succ] at hthirteen
    have hdecember : daysInMonth (year - 1) 12 = 31 := rfl
    have hzero : daysBeforeMonth year 1 = 0 := rfl
    rw [Int.sub_add_cancel] at hyear
    exact isDay_mk (by decide) (Nat.le_of_eq hdecember.symm) (by omega)

/-! ## Texts -/

theorem isPadded_padded {width : Nat} (hwidth : 0 < width) (n : Nat) :
    IsPadded width n (padded width n) := isPadded_zeros_toDigits hwidth n

/-- Four digits, and a sign outside of the years 0 to 9999, where there may be more. -/
def IsYear (year : Int) (s : List Char) : Prop :=
  if 0 ≤ year ∧ year ≤ 9999 then IsPadded 4 year.natAbs s
  else ∃ ds, IsPadded 4 year.natAbs ds ∧ s = (if year < 0 then '-' else '+') :: ds

theorem isYear_yearChars (year : Int) : IsYear year (yearChars year) := by
  unfold IsYear yearChars
  split
  · exact isPadded_padded (by decide) _
  · exact ⟨_, isPadded_padded (by decide) _, rfl⟩

end Instant

open Instant

/-- What a calendar and a clock in a zone show at an instant: a date and a clock time that exist,
and that come after those in UTC by as many seconds as the zone is ahead.  In a leap second the
clock shows one more. -/
inductive Zone.Shows (zone : Zone) (t : Instant) : List Char → Prop where
  | intro {year : Int} {month day hour minute second : Nat}
      (hcivil : IsCivil year month day hour minute second 0)
      (hmoment : dayNumber year month day * 86400 + secondOfDay hour minute second =
        dayNumber t.year t.month t.day * 86400 + secondOfDay t.hour t.minute t.second
          + zone.offset t)
      {y mo d h mi s : List Char} (hyear : IsYear year y) (hmonth : IsPadded 2 month mo)
      (hday : IsPadded 2 day d) (hhour : IsPadded 2 hour h) (hminute : IsPadded 2 minute mi)
      (hsecond : IsPadded 2 (if t.nano < 1000000000 then second else second + 1) s) :
      Shows zone t
        (y ++ '-' :: (mo ++ '-' :: (d ++ ' ' :: (h ++ ':' :: (mi ++ ':' :: s)))))

namespace Instant

/-- A date of the right number and a second of that day. -/
theorem shows_of_isDay {zone : Zone} {t : Instant} {n : Int} {date : Int × Nat × Nat}
    (hdate : IsDay n date) {second : Nat} (hsecond : second < 86400)
    (hmoment : n * 86400 + second = dayNumber t.year t.month t.day * 86400
      + secondOfDay t.hour t.minute t.second + zone.offset t) :
    zone.Shows t (dateChars date.1 date.2.1 date.2.2 ++ ' ' :: clockChars (second / 3600)
      (second / 60 % 60) (second % 60 + t.nano / 1000000000)) := by
  obtain ⟨hday, hnumber⟩ := hdate
  have hpadded (k : Nat) : IsPadded 2 k (padded 2 k) := isPadded_padded (by decide) k
  have hcivil : IsCivil date.1 date.2.1 date.2.2 (second / 3600) (second / 60 % 60) (second % 60)
      0 := by
    refine ⟨hday, by omega, by omega, by omega, ?_⟩
    split <;> decide
  have hshown : (if t.nano < 1000000000 then second % 60 else second % 60 + 1) =
      second % 60 + t.nano / 1000000000 := by
    have hnano := t.civil.2.2.2.2
    split at hnano <;> split <;> omega
  have hclock : secondOfDay (second / 3600) (second / 60 % 60) (second % 60) = second := by
    unfold secondOfDay
    omega
  rw [← hnumber] at hmoment
  have htext : dateChars date.1 date.2.1 date.2.2 ++ ' ' :: clockChars (second / 3600)
      (second / 60 % 60) (second % 60 + t.nano / 1000000000) =
      yearChars date.1 ++ '-' :: (padded 2 date.2.1 ++ '-' :: (padded 2 date.2.2 ++ ' ' ::
        (padded 2 (second / 3600) ++ ':' :: (padded 2 (second / 60 % 60) ++ ':' ::
          padded 2 (second % 60 + t.nano / 1000000000))))) := by
    simp only [dateChars, clockChars, List.append_assoc, List.cons_append]
  rw [htext]
  refine .intro hcivil ?_ (isYear_yearChars _) (hpadded _) (hpadded _) (hpadded _) (hpadded _) ?_
  · rw [hclock]
    exact hmoment
  · rw [hshown]
    exact hpadded _

/-- The text of an instant in a zone is what is shown there. -/
theorem clockText_shows (zone : Zone) (t : Instant) :
    zone.Shows t (t.clockText zone).toList := by
  obtain ⟨hahead, hbehind⟩ := zone.within t
  obtain ⟨hday, hhour, hminute, hsecond, -⟩ := t.civil
  have hclock : secondOfDay t.hour t.minute t.second < 86400 := by
    unfold secondOfDay
    omega
  have hsame : IsDay (dayNumber t.year t.month t.day) (t.year, t.month, t.day) := ⟨hday, rfl⟩
  have hnext := dayNumber_nextDay hday
  have hprevious := dayNumber_previousDay hday
  unfold clockText
  dsimp only
  rw [String.toList_ofList]
  generalize hseconds : (secondOfDay t.hour t.minute t.second : Int) + zone.offset t = seconds
  -- the zone may still have the day before, or have the day after
  split
  · exact shows_of_isDay hprevious (by omega) (by omega)
  split
  · exact shows_of_isDay hnext (by omega) (by omega)
  · exact shows_of_isDay hsame (by omega) (by omega)

end Instant

end Gazetteer
