import Postit.Publishing.Period

/-!
# Quota periods tile time

The next reset `period` returns is where the next period opens: at the first showing of its first
day's midnight or of the first whole hour the zone's clock shows of it.  Whether the periods tile
time is then a question about the clock alone: that it is not set back over the start of a period,
and that no period begins before its first whole hour.
-/

namespace Postit.Publishing

open Postit.Chrono Postit.Framework Postit.Validation

/-! ## Periods of days -/

/-- The first day of the period of a day. -/
def firstDay : QuotaPeriod → ℤ → ℤ
  | .day, day => day
  | .month, day => monthStart (monthOf day)

/-- The first day of the period after it. -/
def nextFirstDay : QuotaPeriod → ℤ → ℤ
  | .day, day => day + 1
  | .month, day => monthStart (monthOf day + 1)

section Days

variable {p : QuotaPeriod} {day day' : ℤ}

lemma firstDay_le (p : QuotaPeriod) (day : ℤ) : firstDay p day ≤ day := by
  cases p with
  | day => exact le_rfl
  | month => exact (monthStart_monthOf day).1

lemma lt_nextFirstDay (p : QuotaPeriod) (day : ℤ) : day < nextFirstDay p day := by
  cases p with
  | day => exact Int.lt_succ day
  | month => exact (monthStart_monthOf day).2

/-- A period holds the days from its first day to the first day of the next. -/
lemma firstDay_eq_of_mem (hfirst : firstDay p day ≤ day') (hnext : day' < nextFirstDay p day) :
    firstDay p day' = firstDay p day := by
  cases p with
  | day =>
    simp only [firstDay, nextFirstDay] at *
    omega
  | month =>
    have hle := (gc_monthStart_monthOf _ _).mp hfirst
    have hlt := mt (gc_monthStart_monthOf _ _).mpr (not_le.mpr hnext)
    have hmonth : monthOf day' = monthOf day := by omega
    simp only [firstDay, hmonth]

/-- The days from there on are in later periods. -/
lemma firstDay_lt_iff : firstDay p day < firstDay p day' ↔ nextFirstDay p day ≤ day' := by
  cases p with
  | day => exact Iff.rfl
  | month =>
    rw [firstDay, firstDay, monthStart_strictMono.lt_iff_lt, nextFirstDay,
      gc_monthStart_monthOf (monthOf day + 1) day']
    exact Iff.rfl

end Days

/-! ## Dates -/

lemma minDay_eq : NaiveDate.minDay = monthStart (12 * -262143) := by decide

/-- The calendar starts with a month. -/
lemma minDay_le_monthStart {day : ℤ} (h : NaiveDate.minDay ≤ day) :
    NaiveDate.minDay ≤ monthStart (monthOf day) := by
  rw [minDay_eq] at *
  exact monthStart_strictMono.monotone ((gc_monthStart_monthOf _ _).mp h)

lemma minDay_le_firstDay {day : ℤ} (p : QuotaPeriod) (h : NaiveDate.minDay ≤ day) :
    NaiveDate.minDay ≤ firstDay p day := by
  cases p with
  | day => exact h
  | month => exact minDay_le_monthStart h

lemma withDay_one (today : NaiveDate) :
    ∃ first, today.withDay 1 = some first ∧ first.day = monthStart (monthOf today.day) := by
  have hlength := monthLength_pos (monthOf today.day)
  have hlow := minDay_le_monthStart today.le_day
  have hhigh := (monthStart_monthOf today.day).1.trans today.day_le
  refine ⟨⟨_, hlow, hhigh⟩, ?_, rfl⟩
  rw [NaiveDate.withDay, if_pos ⟨le_rfl, hlength⟩, NaiveDate.ofDay_eq_some]
  simp

/-- **The days of a span.** -/
lemma span_eq_some {p : QuotaPeriod} {today start next : NaiveDate} :
    span today p = some (start, next) ↔
      start.day = firstDay p today.day ∧ next.day = nextFirstDay p today.day := by
  cases p with
  | day =>
    simp only [span, NaiveDate.checkedAddDays, Option.map_eq_some_iff, NaiveDate.ofDay_eq_some,
      Prod.mk.injEq, firstDay, nextFirstDay]
    constructor
    · rintro ⟨_, hnext, rfl, rfl⟩
      exact ⟨rfl, hnext⟩
    · rintro ⟨hstart, hnext⟩
      exact ⟨next, hnext, (NaiveDate.ext hstart).symm, rfl⟩
  | month =>
    obtain ⟨first, hfirst, hday⟩ := withDay_one today
    have hlength := monthLength_pos (monthOf today.day + 1)
    have hadd : first.checkedAddMonths 1 =
        NaiveDate.ofDay (monthStart (monthOf today.day + 1)) := by
      rw [NaiveDate.checkedAddMonths, hday, monthOf_monthStart, sub_self, Nat.cast_one,
        min_eq_left (by omega), add_zero]
    simp only [span, hfirst, Option.getD_some, hadd, Option.map_eq_some_iff,
      NaiveDate.ofDay_eq_some, Prod.mk.injEq, firstDay, nextFirstDay]
    constructor
    · rintro ⟨_, hnext, rfl, rfl⟩
      exact ⟨hday, hnext⟩
    · rintro ⟨hstart, hnext⟩
      exact ⟨next, hnext, NaiveDate.ext (hday.trans hstart.symm), rfl⟩

/-! ## Where a day opens -/

/-- No instant shows the local time. -/
def Skipped (zone : Zone) (l : ℤ) : Prop := ∀ t, zone.toLocal t ≠ l

/-- The instant a day opens at: the first that shows its midnight or, where none does, the first of
its whole hours that is shown, to the midnight after it; midnight in UTC where none of them is. -/
inductive Opening (zone : Zone) (day : NaiveDate) (opening : Instant) : Prop
  | hour (hour : ℕ) (hle : hour ≤ 24) (shown : zone.toLocal opening = day.atHour hour)
      (first : ∀ t, zone.toLocal t = day.atHour hour → opening.nanos ≤ t.nanos)
      (skipped : ∀ h < hour, Skipped zone (day.atHour h))
  | never (skipped : ∀ h ≤ 24, Skipped zone (day.atHour h)) (utc : opening = day.andUtc)

/-- The calendar does not end before the day is open. -/
def Opens (zone : Zone) (day : NaiveDate) : Prop :=
  day.day = NaiveDate.maxDay → ∃ hour < 24, ¬ Skipped zone (day.atHour hour)

section Openings

variable {zone : Zone} {day : NaiveDate} {opening : Instant}

lemma atHour_outside {hour : ℕ} (hle : hour ≤ 24) :
    (NaiveDate.maxDay + 1) * dayNanos ≤ day.atHour hour ↔
      day.day = NaiveDate.maxDay ∧ hour = 24 := by
  have := day.day_le
  simp only [NaiveDate.atHour, dayNanos, hourNanos, NaiveDate.maxDay] at *
  omega

/-- The search stops at the first hour that is shown, or ends; on the last day of the calendar it
cannot end. -/
lemma firstHour_cases (zone : Zone) (day : NaiveDate) (n : ℕ) : ∀ start, start + n = 24 →
    (∃ hour at_, start ≤ hour ∧ hour ≤ 24 ∧ (day.day = NaiveDate.maxDay → hour < 24) ∧
      (zone.fromLocal (day.atHour hour)).earliest = some at_ ∧
      (∀ h, start ≤ h → h < hour → Skipped zone (day.atHour h)) ∧
      firstHour zone day (List.range' start (n + 1)) = some (some at_)) ∨
    (day.day ≠ NaiveDate.maxDay ∧ (∀ h, start ≤ h → h ≤ 24 → Skipped zone (day.atHour h)) ∧
      firstHour zone day (List.range' start (n + 1)) = some none) ∨
    (day.day = NaiveDate.maxDay ∧ (∀ h, start ≤ h → h < 24 → Skipped zone (day.atHour h)) ∧
      firstHour zone day (List.range' start (n + 1)) = none) := by
  induction n with
  | zero =>
    intro start hstart
    obtain rfl : start = 24 := by omega
    by_cases hlast : day.day = NaiveDate.maxDay
    · refine .inr (.inr ⟨hlast, fun h hge hlt => by omega, ?_⟩)
      simp [firstHour, (atHour_outside le_rfl).mpr ⟨hlast, rfl⟩]
    · have hin := mt (atHour_outside (le_refl 24)).mp (fun h => hlast h.1)
      cases hshown : (zone.fromLocal (day.atHour 24)).earliest with
      | some at_ =>
        refine .inl ⟨24, at_, le_rfl, le_rfl, fun h => absurd h hlast, hshown, ?_, ?_⟩
        · intro h hge hlt
          omega
        · simp [firstHour, hin, hshown]
      | none =>
        refine .inr (.inl ⟨hlast, ?_, by simp [firstHour, hin, hshown]⟩)
        intro h hge hle
        obtain rfl : h = 24 := by omega
        exact Zone.earliest_eq_none.mp hshown
  | succ n ih =>
    intro start hstart
    have hin : ¬ (NaiveDate.maxDay + 1) * dayNanos ≤ day.atHour start := by
      rw [atHour_outside (by omega)]
      omega
    rw [List.range'_succ]
    cases hshown : (zone.fromLocal (day.atHour start)).earliest with
    | some at_ =>
      refine .inl ⟨start, at_, le_rfl, by omega, fun _ => by omega, hshown, ?_, ?_⟩
      · intro h hge hlt
        omega
      · simp only [firstHour, if_neg hin, hshown]
    | none =>
      have hskipped := Zone.earliest_eq_none.mp hshown
      have hstep : firstHour zone day (start :: List.range' (start + 1) (n + 1)) =
          firstHour zone day (List.range' (start + 1) (n + 1)) := by
        simp only [firstHour, if_neg hin, hshown]
      have hextend : ∀ {h}, start ≤ h → (start + 1 ≤ h → Skipped zone (day.atHour h)) →
          Skipped zone (day.atHour h) := by
        intro h hge hrest
        rcases eq_or_lt_of_le hge with rfl | hlt
        · exact hskipped
        · exact hrest hlt
      rw [hstep]
      rcases ih (start + 1) (by omega) with
        ⟨hour, at_, hge, hle, hlast, hat, hbefore, hfound⟩ | ⟨hlast, hall, hfound⟩ |
          ⟨hlast, hall, hfound⟩
      · exact .inl ⟨hour, at_, by omega, hle, hlast, hat,
          fun h hge' hlt => hextend hge' fun hge => hbefore h hge hlt, hfound⟩
      · exact .inr (.inl ⟨hlast, fun h hge' hle => hextend hge' fun hge => hall h hge hle, hfound⟩)
      · exact .inr (.inr ⟨hlast, fun h hge' hlt => hextend hge' fun hge => hall h hge hlt, hfound⟩)

lemma startOf_of_shown (h : (zone.fromLocal (day.atHour 0)).earliest = some opening) :
    startOf zone day = some opening := by
  unfold startOf
  cases hl : zone.fromLocal (day.atHour 0) with
  | none => simp [hl, LocalResult.earliest] at h
  | single at_ | ambiguous at_ _ => simpa [hl, LocalResult.earliest] using h

lemma startOf_of_skipped (h : (zone.fromLocal (day.atHour 0)).earliest = none) :
    startOf zone day =
      (firstHour zone day (List.range' 1 24)).map fun found => found.getD day.andUtc := by
  unfold startOf
  cases hl : zone.fromLocal (day.atHour 0) with
  | none => rfl
  | single at_ | ambiguous at_ _ => simp [hl, LocalResult.earliest] at h

/-- **Where a day starts.** -/
lemma startOf_cases (zone : Zone) (day : NaiveDate) :
    (Opens zone day ∧ ∃ opening, Opening zone day opening ∧ startOf zone day = some opening) ∨
      (¬ Opens zone day ∧ startOf zone day = none) := by
  cases hshown : (zone.fromLocal (day.atHour 0)).earliest with
  | some at_ =>
    obtain ⟨hat, hfirst⟩ := Zone.earliest_eq_some.mp hshown
    exact .inl ⟨fun _ => ⟨0, by omega, fun h => h at_ hat⟩, at_,
      .hour 0 (by omega) hat hfirst (by omega), startOf_of_shown hshown⟩
  | none =>
    have hmidnight := Zone.earliest_eq_none.mp hshown
    have hextend : ∀ {h}, (1 ≤ h → Skipped zone (day.atHour h)) →
        Skipped zone (day.atHour h) := by
      intro h hrest
      rcases Nat.eq_zero_or_pos h with rfl | hpos
      · exact hmidnight
      · exact hrest hpos
    rw [startOf_of_skipped hshown]
    rcases firstHour_cases zone day 23 1 rfl with
      ⟨hour, at_, hge, hle, hlast, hat, hbefore, hfound⟩ | ⟨hlast, hall, hfound⟩ |
        ⟨hlast, hall, hfound⟩
    · obtain ⟨hshows, hfirst⟩ := Zone.earliest_eq_some.mp hat
      exact .inl ⟨fun h => ⟨hour, hlast h, fun hskip => hskip at_ hshows⟩, at_,
        .hour hour hle hshows hfirst fun h hlt => hextend fun hpos => hbefore h hpos hlt,
        by rw [hfound]; rfl⟩
    · exact .inl ⟨fun h => absurd h hlast, day.andUtc,
        .never (fun h hle => hextend fun hpos => hall h hpos hle) rfl, by rw [hfound]; rfl⟩
    · refine .inr ⟨fun hopens => ?_, by rw [hfound]; rfl⟩
      obtain ⟨hour, hlt, hshows⟩ := hopens hlast
      exact hshows (hextend fun hpos => hall hour hpos hlt)

/-- A day opens once. -/
lemma Opening.unique {opening' : Instant} (h : Opening zone day opening)
    (h' : Opening zone day opening') : opening = opening' := by
  cases h with
  | hour hour hle shown first skipped =>
    cases h' with
    | hour hour' hle' shown' first' skipped' =>
      obtain hlt | rfl | hlt := lt_trichotomy hour hour'
      · exact absurd shown (skipped' hour hlt opening)
      · have hnanos := le_antisymm (first opening' shown') (first' opening shown)
        cases opening
        cases opening'
        cases hnanos
        rfl
      · exact absurd shown' (skipped hour' hlt opening')
    | never skipped' utc => exact absurd shown (skipped' hour hle opening)
  | never skipped utc =>
    cases h' with
    | hour hour' hle' shown' first' skipped' => exact absurd shown' (skipped hour' hle' opening')
    | never skipped' utc' => exact utc.trans utc'.symm

lemma exists_opening (h : Opens zone day) : ∃ opening, Opening zone day opening := by
  rcases startOf_cases zone day with ⟨-, found, hopening, -⟩ | ⟨hclosed, -⟩
  · exact ⟨found, hopening⟩
  · exact absurd h hclosed

lemma startOf_eq_some :
    startOf zone day = some opening ↔ Opens zone day ∧ Opening zone day opening := by
  rcases startOf_cases zone day with ⟨hopens, found, hopening, hstart⟩ | ⟨hclosed, hstart⟩
  · rw [hstart, Option.some.injEq]
    exact ⟨fun h => ⟨hopens, h ▸ hopening⟩, fun h => hopening.unique h.2⟩
  · simp [hstart, hclosed]

end Openings

/-! ## Periods of instants -/

/-- The first day of the period after the one that holds `now`, if the calendar has it. -/
def nextDate (zone : Zone) (p : QuotaPeriod) (now : Instant) : Option NaiveDate :=
  NaiveDate.ofDay (nextFirstDay p (zone.day now))

/-- The calendar has the local day, and the next period opens before the calendar ends. -/
def InCalendar (zone : Zone) (p : QuotaPeriod) (now : Instant) : Prop :=
  NaiveDate.minDay ≤ zone.day now ∧ ∃ date, nextDate zone p now = some date ∧ Opens zone date

lemma dateNaive_eq_some {zone : Zone} {now : Instant} {today : NaiveDate} :
    zone.dateNaive now = some today ↔ today.day = zone.day now :=
  NaiveDate.ofDay_eq_some

/-- **What a period is.** -/
lemma period_eq_some {tz : TimeZones} {bucket : Validation.QuotaBucket} {now next : Instant}
    {start : NaiveDate} :
    period tz bucket now = some (start, next) ↔
      InCalendar (tz.zone bucket.resetTimeZone) bucket.period now ∧
      start.day = firstDay bucket.period ((tz.zone bucket.resetTimeZone).day now) ∧
      ∃ date, nextDate (tz.zone bucket.resetTimeZone) bucket.period now = some date ∧
        Opening (tz.zone bucket.resetTimeZone) date next := by
  set zone := tz.zone bucket.resetTimeZone with hzone
  unfold period
  rw [← hzone]
  simp only [Option.bind_eq_bind, Option.bind_eq_some_iff, dateNaive_eq_some, Prod.exists,
    span_eq_some, startOf_eq_some, Option.pure_def, Option.some.injEq, Prod.mk.injEq]
  constructor
  · rintro ⟨today, htoday, first, date, ⟨hfirst, hdate⟩, at_, ⟨hopens, hopening⟩, rfl, rfl⟩
    rw [htoday] at hfirst hdate
    have hnext : nextDate zone bucket.period now = some date := NaiveDate.ofDay_eq_some.mpr hdate
    exact ⟨⟨htoday ▸ today.le_day, date, hnext, hopens⟩, hfirst, date, hnext, hopening⟩
  · rintro ⟨⟨hlow, date, hnext, hopens⟩, hstart, date', hnext', hopening⟩
    obtain rfl := Option.some.inj (hnext.symm.trans hnext')
    have hdate := NaiveDate.ofDay_eq_some.mp hnext
    have hhigh : zone.day now ≤ NaiveDate.maxDay := by
      have hlt := lt_nextFirstDay bucket.period (zone.day now)
      have hmax := date.day_le
      omega
    exact ⟨⟨_, hlow, hhigh⟩, rfl, start, date, ⟨hstart, hdate⟩, next, ⟨hopens, hopening⟩, rfl,
      rfl⟩

/-- A period the calendar has is found. -/
lemma exists_period {tz : TimeZones} {bucket : Validation.QuotaBucket} {now : Instant}
    (h : InCalendar (tz.zone bucket.resetTimeZone) bucket.period now) :
    ∃ start next, period tz bucket now = some (start, next) := by
  obtain ⟨hlow, date, hdate, hopens⟩ := h
  obtain ⟨opening, hopening⟩ := exists_opening hopens
  set day := (tz.zone bucket.resetTimeZone).day now with hday
  have hhigh : firstDay bucket.period day ≤ NaiveDate.maxDay := by
    have hnext : date.day = nextFirstDay bucket.period day := NaiveDate.ofDay_eq_some.mp hdate
    have hle := firstDay_le bucket.period day
    have hlt := lt_nextFirstDay bucket.period day
    have hmax := date.day_le
    omega
  exact ⟨⟨_, minDay_le_firstDay bucket.period hlow, hhigh⟩, opening, period_eq_some.2
    ⟨⟨hlow, date, hdate, hopens⟩, rfl, date, hdate, hopening⟩⟩

/-- The day an owner's cap counts by is the period of a daily bucket; on the calendar's last day,
which has no period, it lasts to the end of time. -/
lemma localDay_cases {tz : TimeZones} {bucket : Validation.QuotaBucket} {now : Instant}
    (hdaily : bucket.period = .day) {today : NaiveDate}
    (htoday : (tz.zone bucket.resetTimeZone).dateNaive now = some today) :
    localDay tz bucket.resetTimeZone now = period tz bucket now ∨
      (today.day = NaiveDate.maxDay ∧ period tz bucket now = none ∧
        localDay tz bucket.resetTimeZone now = some (today, maxInstant)) := by
  cases hnext : today.checkedAddDays 1 with
  | none =>
    refine .inr ⟨?_, ?_, ?_⟩
    · have hmax := today.day_le
      have hmin := today.le_day
      simp only [NaiveDate.checkedAddDays, NaiveDate.ofDay, dite_eq_right_iff, reduceCtorEq,
        imp_false] at hnext
      omega
    · simp [period, htoday, hdaily, span, hnext]
    · simp [localDay, htoday, nextLocalDay, hnext]
  | some tomorrow =>
    left
    simp [period, localDay, htoday, hdaily, span, nextLocalDay, hnext]

/-! ## Clocks -/

/-- The day was open by `t`, whose clock has been set back to an earlier one. -/
def SetBack (zone : Zone) (date : NaiveDate) (opening t : Instant) : Prop :=
  opening.nanos ≤ t.nanos ∧ zone.day t < date.day

/-- The clock shows the day, or a later one, before the day is open. -/
def Early (zone : Zone) (date : NaiveDate) (opening t : Instant) : Prop :=
  t.nanos < opening.nanos ∧ date.day ≤ zone.day t

/-- The clock of the zone turns to the period after the one that holds `now` once, when that opens,
as far as `now` and `later` tell; and it does not go back from the one to before the other. -/
structure Regular (zone : Zone) (p : QuotaPeriod) (now later : Instant) : Prop where
  now_in : InCalendar zone p now
  later_in : InCalendar zone p later
  steady : ∀ date opening, nextDate zone p now = some date → Opening zone date opening →
    ¬ SetBack zone date opening now ∧ ¬ SetBack zone date opening later ∧
      (now.nanos ≤ later.nanos → ¬ Early zone date opening later)
  kept : now.nanos ≤ later.nanos → firstDay p (zone.day now) ≤ zone.day later

/-- The next reset is after `now`; an instant of the same local period, or before the reset, has the
same start, and one from the reset on a later start. -/
def Tiles (tz : TimeZones) (bucket : Validation.QuotaBucket) (now later : Instant) : Prop :=
  ∃ start next start' next',
    period tz bucket now = some (start, next) ∧ period tz bucket later = some (start', next') ∧
    now.nanos < next.nanos ∧
    (firstDay bucket.period ((tz.zone bucket.resetTimeZone).day later) =
      firstDay bucket.period ((tz.zone bucket.resetTimeZone).day now) → start' = start) ∧
    (now.nanos ≤ later.nanos → later.nanos < next.nanos → start' = start) ∧
    (next.nanos ≤ later.nanos → start.day < start'.day)

/-- **Quota periods tile time exactly under a regular clock.** -/
theorem period_tiles_iff (tz : TimeZones) (bucket : Validation.QuotaBucket)
    (now later : Instant) :
    Tiles tz bucket now later ↔
      Regular (tz.zone bucket.resetTimeZone) bucket.period now later := by
  unfold Tiles
  constructor
  · rintro ⟨start, next, start', next', hperiod, hperiod', hnext, -, hsame, hlater⟩
    obtain ⟨hin, hstart, date, hdate, hopening⟩ := period_eq_some.1 hperiod
    obtain ⟨hin', hstart', -⟩ := period_eq_some.1 hperiod'
    set zone := tz.zone bucket.resetTimeZone
    set p := bucket.period
    have hday : date.day = nextFirstDay p (zone.day now) := NaiveDate.ofDay_eq_some.mp hdate
    have hfirst := firstDay_le p (zone.day now)
    have hbefore := lt_nextFirstDay p (zone.day now)
    -- what `later` shows before the reset, and from it on
    have hbeforeReset (hle : now.nanos ≤ later.nanos) (hlt : later.nanos < next.nanos) :
        firstDay p (zone.day now) ≤ zone.day later ∧ zone.day later < date.day := by
      have heq : firstDay p (zone.day later) = firstDay p (zone.day now) := by
        rw [← hstart', ← hstart, hsame hle hlt]
      have hlow := firstDay_le p (zone.day later)
      have hnot := mt (firstDay_lt_iff (p := p)).mpr (not_lt.mpr heq.le)
      omega
    have hfromReset (hle : next.nanos ≤ later.nanos) : date.day ≤ zone.day later := by
      have hlt := hlater hle
      rwa [hstart, hstart', firstDay_lt_iff, ← hday] at hlt
    refine ⟨hin, hin', ?_, ?_⟩
    · intro date' opening hdate' hopening'
      obtain rfl := Option.some.inj (hdate.symm.trans hdate')
      obtain rfl := hopening.unique hopening'
      refine ⟨?_, ?_, ?_⟩
      · rintro ⟨hle, -⟩
        omega
      · rintro ⟨hle, hlt⟩
        exact absurd (hfromReset hle) (not_le.mpr hlt)
      · rintro hle ⟨hlt, hshown⟩
        exact absurd (hbeforeReset hle hlt).2 (not_lt.mpr hshown)
    · intro hle
      rcases lt_or_ge later.nanos next.nanos with hlt | hge
      · exact (hbeforeReset hle hlt).1
      · have hshown := hfromReset hge
        omega
  · rintro ⟨hin, hin', hsteady, hkept⟩
    obtain ⟨start, next, hperiod⟩ := exists_period hin
    obtain ⟨start', next', hperiod'⟩ := exists_period hin'
    obtain ⟨-, hstart, date, hdate, hopening⟩ := period_eq_some.1 hperiod
    obtain ⟨-, hstart', -⟩ := period_eq_some.1 hperiod'
    obtain ⟨hnow, hlater, hearly⟩ := hsteady date next hdate hopening
    set zone := tz.zone bucket.resetTimeZone
    set p := bucket.period
    have hday : date.day = nextFirstDay p (zone.day now) := NaiveDate.ofDay_eq_some.mp hdate
    have hbefore := lt_nextFirstDay p (zone.day now)
    refine ⟨start, next, start', next', hperiod, hperiod', ?_, ?_, ?_, ?_⟩
    · exact not_le.mp fun hle => hnow ⟨hle, hday ▸ hbefore⟩
    · intro hsame
      exact NaiveDate.ext (by rw [hstart', hstart, hsame])
    · intro hle hlt
      have hshown : zone.day later < date.day := not_le.mp fun h => hearly hle ⟨hlt, h⟩
      exact NaiveDate.ext (by rw [hstart', hstart, firstDay_eq_of_mem (hkept hle) (hday ▸ hshown)])
    · intro hle
      have hshown : date.day ≤ zone.day later := not_lt.mp fun h => hlater ⟨hle, h⟩
      rw [hstart, hstart', firstDay_lt_iff, ← hday]
      exact hshown

/-! ## UTC -/

lemma opening_utc {date : NaiveDate} {opening : Instant} (h : Opening Zone.utc date opening) :
    opening.nanos = date.atHour 0 := by
  cases h with
  | hour hour hle shown first skipped =>
    rcases Nat.eq_zero_or_pos hour with rfl | hpos
    · exact shown
    · exact absurd rfl (skipped 0 hpos date.andUtc)
  | never skipped utc => exact congrArg Instant.nanos utc

/-- The clock of UTC, and so that of an unknown zone, is regular until the calendar ends. -/
lemma regular_utc {p : QuotaPeriod} {now later : Instant} (hnow : InCalendar Zone.utc p now)
    (hlater : InCalendar Zone.utc p later) : Regular Zone.utc p now later := by
  have hday (t : Instant) : Zone.utc.day t = t.nanos / dayNanos := rfl
  refine ⟨hnow, hlater, ?_, ?_⟩
  · intro date opening _ hopening
    have hnanos := opening_utc hopening
    simp only [SetBack, Early, hday, hnanos, NaiveDate.atHour, dayNanos]
    omega
  · intro hle
    refine (firstDay_le p _).trans ?_
    simp only [hday, dayNanos]
    omega

/-! ## A clock that turns once -/

/-- A zone whose clock is moved once, at an instant, from one offset to another. -/
def turning (at_ before after : ℤ) : Zone where
  toLocal t := if t.nanos < at_ then t.nanos + before else t.nanos + after
  fromLocal l :=
    if early : (Instant.minUtc ≤ l - before ∧ l - before ≤ Instant.maxUtc) ∧ l - before < at_ then
      if late : (Instant.minUtc ≤ l - after ∧ l - after ≤ Instant.maxUtc) ∧ at_ ≤ l - after then
        .ambiguous ⟨l - before, early.1.1, early.1.2⟩ ⟨l - after, late.1.1, late.1.2⟩
      else .single ⟨l - before, early.1.1, early.1.2⟩
    else if late : (Instant.minUtc ≤ l - after ∧ l - after ≤ Instant.maxUtc) ∧ at_ ≤ l - after then
      .single ⟨l - after, late.1.1, late.1.2⟩
    else .none
  has_fromLocal l t := by
    have hlow := t.le_nanos
    have hhigh := t.nanos_le
    split_ifs <;> simp only [LocalResult.Has, Instant.ext_iff, false_iff] <;> omega
  ordered l earliest latest h := by
    split_ifs at h with early late
    cases h
    exact early.2.trans_le late.2

/-- The zones of one clock, whatever their names. -/
def clock (zone : Zone) : TimeZones := ⟨fun _ => some zone⟩

/-- A bucket that resets every day. -/
def dailyBucket : Validation.QuotaBucket where
  id := "posts"
  scope := .account
  period := .day
  defaultLimit := 10
  resetTimeZone := "America/St_Johns"
  costs := ⟨1, 0, 0, 0⟩

/-- Newfoundland in November 2010: a minute after midnight the clock is set back an hour. -/
def stJohns : Zone := turning (1289097060 * 10 ^ 9) (-9000 * 10 ^ 9) (-12600 * 10 ^ 9)

/-- Nepal at the end of 1985: at midnight the clock is moved a quarter of an hour forward. -/
def kathmandu : Zone := turning (504901800 * 10 ^ 9) (19800 * 10 ^ 9) (20700 * 10 ^ 9)

/-- A quarter past eleven in Newfoundland, after the day's first midnight. -/
def setBackTime : Instant := ⟨1289097900 * 10 ^ 9, by decide, by decide⟩

/-- The last afternoon of 1985 in Nepal. -/
def beforeGap : Instant := ⟨504878400 * 10 ^ 9, by decide, by decide⟩

/-- Half past midnight there, by the clock that was moved. -/
def afterGap : Instant := ⟨504902700 * 10 ^ 9, by decide, by decide⟩

/-- The next reset may be past already; the next period may begin before it; and in the last period
of the calendar the code panics. -/
theorem not_period_tiles :
    ¬ Tiles (clock stJohns) dailyBucket setBackTime setBackTime ∧
      ¬ Tiles (clock kathmandu) dailyBucket beforeGap afterGap ∧
      ¬ Tiles (clock Zone.utc) dailyBucket maxInstant maxInstant := by
  refine ⟨?_, ?_, ?_⟩
  · rintro ⟨start, next, -, -, hperiod, -, hnext, -⟩
    have hreset : (period (clock stJohns) dailyBucket setBackTime).map (·.2.nanos) =
        some (1289097000 * 10 ^ 9) := by decide
    rw [hperiod, Option.map_some, Option.some.injEq] at hreset
    rw [hreset] at hnext
    exact absurd hnext (by decide)
  · rintro ⟨start, next, start', next', hperiod, hperiod', -, -, hsame, -⟩
    have hnow : (period (clock kathmandu) dailyBucket beforeGap).map
        (fun r => (r.1.day, r.2.nanos)) = some (5843, 504904500 * 10 ^ 9) := by decide
    have hlater : (period (clock kathmandu) dailyBucket afterGap).map (·.1.day) =
        some 5844 := by decide
    rw [hperiod, Option.map_some, Option.some.injEq, Prod.mk.injEq] at hnow
    rw [hperiod', Option.map_some, Option.some.injEq] at hlater
    have heq := hsame (by decide) (hnow.2 ▸ by decide)
    rw [heq, hnow.1] at hlater
    cases hlater
  · rintro ⟨start, next, -, -, hperiod, -⟩
    have hnone : (period (clock Zone.utc) dailyBucket maxInstant).isNone := by decide
    rw [hperiod] at hnone
    cases hnone

end Postit.Publishing
