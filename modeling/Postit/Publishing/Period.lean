import Postit.Core.Zones
import Postit.Validation.Descriptor

/-!
# Quota periods

A bucket counts by the local day or month of its reset time zone.  The counter is named by the
period's first day; the next period starts at its first midnight or, where a time change skips that,
at the first whole hour that exists.
-/

namespace Postit.Publishing

open Postit.Chrono Postit.Framework Postit.Validation

/-- The time zones by their names. -/
structure TimeZones where
  parse : String → Option Zone

/-- The zone of a name; an unknown one counts as UTC. -/
def TimeZones.zone (tz : TimeZones) (name : String) : Zone := (tz.parse name).getD Zone.utc

/-- The first of the hours that the day's clock shows, if any; the end of the calendar is a
panic. -/
def firstHour (zone : Zone) (day : NaiveDate) : List ℕ → Option (Option Instant)
  | [] => some none
  | hour :: hours =>
      if (NaiveDate.maxDay + 1) * dayNanos ≤ day.atHour hour then none
      else
        match (zone.fromLocal (day.atHour hour)).earliest with
        | some at_ => some (some at_)
        | none => firstHour zone day hours

/-- Midnight starting `day` in `zone`. -/
def startOf (zone : Zone) (day : NaiveDate) : Option Instant :=
  match zone.fromLocal (day.atHour 0) with
  | .single at_ | .ambiguous at_ _ => some at_
  | .none => (firstHour zone day (List.range' 1 24)).map fun found => found.getD day.andUtc

/-- The first day of the period of a date, and of the next. -/
def span (today : NaiveDate) : QuotaPeriod → Option (NaiveDate × NaiveDate)
  | .day => (today.checkedAddDays 1).map (today, ·)
  | .month =>
      let first := (today.withDay 1).getD today
      (first.checkedAddMonths 1).map (first, ·)

/-- The first day of the period holding `now` in the bucket's reset time zone, and when the next
period starts.  It is none where the calendar ends, which is a panic. -/
def period (tz : TimeZones) (bucket : Validation.QuotaBucket) (now : Instant) :
    Option (NaiveDate × Instant) := do
  let zone := tz.zone bucket.resetTimeZone
  let today ← zone.dateNaive now
  let (start, next) ← span today bucket.period
  let at_ ← startOf zone next
  pure (start, at_)

/-- `DateTime::<Utc>::MAX_UTC` -/
def maxInstant : Instant := ⟨Instant.maxUtc, by decide, le_rfl⟩

/-- When the next local day starts; after the last day of the calendar, at the end of time. -/
def nextLocalDay (zone : Zone) (today : NaiveDate) : Option Instant :=
  match today.checkedAddDays 1 with
  | none => some maxInstant
  | some tomorrow => startOf zone tomorrow

/-- The local date `now` falls on in a zone, and when the next local day starts. -/
def localDay (tz : TimeZones) (name : String) (now : Instant) : Option (NaiveDate × Instant) := do
  let zone := tz.zone name
  let today ← zone.dateNaive now
  let next ← nextLocalDay zone today
  pure (today, next)

end Postit.Publishing
