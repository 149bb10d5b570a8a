import Gazetteer.Instant.Reader

/-!
# What clocks show

A time zone is ahead of UTC by less than a day, at each instant by an amount of its own.
`Instant.clockText` is what a calendar and a clock in a zone show at an instant, the form for
people: `2001-02-03 04:05:06`.
-/

namespace Gazetteer

structure Zone where
  /-- How many seconds the zone is ahead of UTC. -/
  offset : Instant → Int
  within : ∀ t, -86400 < offset t ∧ offset t < 86400

/-- The zone of an offset that may be none. -/
def Zone.ofOffset (offset : Instant → Int) : Zone where
  offset t := if -86400 < offset t ∧ offset t < 86400 then offset t else 0
  within t := by
    split
    · next h => exact h
    · exact ⟨by decide, by decide⟩

def Zone.utc : Zone := ⟨fun _ => 0, fun _ => ⟨by decide, by decide⟩⟩

namespace Instant

/-! ## Counting -/

/-- The days from the first of the year 0 to the first of a year. -/
def daysBeforeYear (year : Int) : Int :=
  365 * year + (year + 3) / 4 - (year + 99) / 100 + (year + 399) / 400

/-- The days of a year before a month. -/
def daysBeforeMonth (year : Int) (month : Nat) : Nat :=
  (List.range month).foldl (fun days m => days + daysInMonth year m) 0

/-- The days up to a date, from the first of the year 0 on. -/
def dayNumber (year : Int) (month day : Nat) : Int :=
  daysBeforeYear year + daysBeforeMonth year month + day

/-- The seconds of the day before a moment of it. -/
def secondOfDay (hour minute second : Nat) : Nat := (hour * 60 + minute) * 60 + second

/-! ## Showing -/

/-- Date and clock time in a zone, without fraction. -/
def clockText (zone : Zone) (t : Instant) : String :=
  let seconds : Int := secondOfDay t.hour t.minute t.second + zone.offset t
  let (year, month, day) :=
    if seconds < 0 then previousDay t.year t.month t.day
    else if 86400 ≤ seconds then nextDay t.year t.month t.day
    else (t.year, t.month, t.day)
  let second := (seconds % 86400).toNat
  -- a leap second is one more than the second it is kept as, in every zone
  let clock := clockChars (second / 3600) (second / 60 % 60)
    (second % 60 + t.nano / 1000000000)
  String.ofList (dateChars year month day ++ ' ' :: clock)

end Instant

end Gazetteer
