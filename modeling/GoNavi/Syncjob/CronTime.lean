import GoNavi.Machine.Calendar
import GoNavi.Machine.Fallible
import GoNavi.Syncjob.CronField
import Mathlib.Order.Bounds.Defs
import Mathlib.Tactic.Linarith

/-! # The next time of a cron expression

Instants are counted in nanoseconds from 1 January 1970.  `nextCronTime` tries the minutes behind
an instant one after the other, for five years of 366 days.

**It returns the first minute behind the instant that matches, and fails only if none of the
minutes that it tries does** (`nextCronTime_first`), in every time zone. -/

namespace GoNavi.Syncjob

open Scan Fallible

/-! ### Instants -/

def second : ℤ := 10 ^ 9

def minute : ℤ := 60 * second

/-- A `*time.Location`: the seconds that its clocks are ahead, at a second. -/
structure Location where
  offset : ℤ → ℤ

/-- What the clocks and the calendar of a location show. -/
structure LocalTime where
  date : Calendar.Date
  weekday : ℤ
  hour : ℤ
  minute : ℤ

/-- `t.In(location)`, as far as it is read. -/
def localTime (location : Location) (t : ℤ) : LocalTime :=
  let seconds := t / second
  let shown := seconds + location.offset seconds
  { date := Calendar.dateOf (shown / 86400)
    weekday := Calendar.weekdayOf (shown / 86400)
    hour := shown / 3600 % 24
    minute := shown / 60 % 60 }

/-- `t.Truncate(time.Minute)`. -/
def truncateMinute (t : ℤ) : ℤ := t - t % minute

/-! ### Schedules -/

/-- The range of a field, which is not longer than the minutes of an hour. -/
structure CronRange where
  minValue : Int64
  maxValue : Int64
  normalizeSunday : Bool
  low : 0 ≤ minValue.toInt
  high : maxValue.toInt ≤ 59

/-- `parseCronField` on the range; its loops end within these turns. -/
def readCronField (range : CronRange) (spec : Text) : Except CronError CronField :=
  (parseCronField 121 spec range.minValue range.maxValue range.normalizeSunday).get
    (Option.isSome_iff_exists.mpr (parseCronField_returns range.low
      (range.high.trans_lt (by decide)) ((show 2 * range.maxValue.toInt + 2 < 121 by
        have := range.high
        omega)) spec))

def minuteRange : CronRange := ⟨0, 59, false, by decide, by decide⟩

def hourRange : CronRange := ⟨0, 23, false, by decide, by decide⟩

def dayOfMonthRange : CronRange := ⟨1, 31, false, by decide, by decide⟩

def monthRange : CronRange := ⟨1, 12, false, by decide, by decide⟩

def dayOfWeekRange : CronRange := ⟨0, 7, true, by decide, by decide⟩

structure CronSchedule where
  minutes : List Int64
  hours : List Int64
  daysOfMonth : List Int64
  months : List Int64
  daysOfWeek : List Int64
  anyDayOfMonth : Bool
  anyDayOfWeek : Bool
  location : Location

inductive CronScheduleError where
  | fiveFields
  | timezone (timezone : Text)
  | minute (err : CronError)
  | hour (err : CronError)
  | day (err : CronError)
  | month (err : CronError)
  | weekday (err : CronError)
  | noExecutionTime

/-- `strings.Fields`; `skip` bytes of a white-space rune are left, and `word` is read so far. -/
def fieldsFrom : (skip : ℕ) → (word : Text) → Text → List Text
  | _, word, [] => if word = [] then [] else [word]
  | skip + 1, word, _ :: t => fieldsFrom skip word t
  | 0, word, c :: t =>
    match stripOne spaceRunes (c :: t) with
    | some rest =>
      let words := fieldsFrom (t.length - rest.length) [] t
      if word = [] then words else word :: words
    | none => fieldsFrom 0 (word ++ [c]) t

def fields (t : Text) : List Text := fieldsFrom 0 [] t

section schedules

variable (loadLocation : Text → Option Location)

/-- `parseCronSchedule`; the time zones are those of the system. -/
def parseCronSchedule (expression timezone : Text) : Except CronScheduleError CronSchedule :=
  match fields (trimSpace expression) with
  | [minute, hour, day, month, weekday] =>
    match loadLocation (trimSpace timezone) with
    | none => .error (.timezone timezone)
    | some location => do
      let minutes ← (readCronField minuteRange minute).mapError .minute
      let hours ← (readCronField hourRange hour).mapError .hour
      let daysOfMonth ← (readCronField dayOfMonthRange day).mapError .day
      let months ← (readCronField monthRange month).mapError .month
      let daysOfWeek ← (readCronField dayOfWeekRange weekday).mapError .weekday
      return {
        minutes := minutes.values
        hours := hours.values
        daysOfMonth := daysOfMonth.values
        months := months.values
        daysOfWeek := daysOfWeek.values
        anyDayOfMonth := daysOfMonth.any
        anyDayOfWeek := daysOfWeek.any
        location }
  | _ => .error .fiveFields

/-- `cronSchedule.matches`. -/
def CronSchedule.matches (schedule : CronSchedule) (candidate : ℤ) : Bool :=
  let shown := localTime schedule.location candidate
  if Int64.ofInt shown.minute ∉ schedule.minutes then false
  else if Int64.ofInt shown.hour ∉ schedule.hours then false
  else if Int64.ofInt shown.date.month ∉ schedule.months then false
  else
    let dayMatches := decide (Int64.ofInt shown.date.day ∈ schedule.daysOfMonth)
    let weekdayMatches := decide (Int64.ofInt shown.weekday ∈ schedule.daysOfWeek)
    if schedule.anyDayOfMonth && schedule.anyDayOfWeek then true
    else if schedule.anyDayOfMonth then weekdayMatches
    else if schedule.anyDayOfWeek then dayMatches
    else dayMatches || weekdayMatches

/-- The loop of `nextCronTime`, for so many minutes. -/
def firstMatch (p : ℤ → Bool) : ℕ → ℤ → Option ℤ
  | 0, _ => none
  | left + 1, candidate =>
    if p candidate then some candidate else firstMatch p left (candidate + minute)

def maxMinutes : ℕ := 366 * 24 * 60 * 5

def nextCronTime (expression timezone : Text) (after : ℤ) : Except CronScheduleError ℤ := do
  let schedule ← parseCronSchedule loadLocation expression timezone
  match firstMatch schedule.matches maxMinutes (truncateMinute after + minute) with
  | some candidate => return candidate
  | none => .error .noExecutionTime

end schedules

/-! ### Matching -/

/-- The rule of the days: a bare `*` leaves the choice to the other field, and two lists are
read as one. -/
def CronSchedule.OnDay (schedule : CronSchedule) (shown : LocalTime) : Prop :=
  let dayOfMonth := Int64.ofInt shown.date.day ∈ schedule.daysOfMonth
  let dayOfWeek := Int64.ofInt shown.weekday ∈ schedule.daysOfWeek
  match schedule.anyDayOfMonth, schedule.anyDayOfWeek with
  | true, true => True
  | true, false => dayOfWeek
  | false, true => dayOfMonth
  | false, false => dayOfMonth ∨ dayOfWeek

/-- The clocks of the location show a time that all fields hold. -/
structure CronSchedule.Due (schedule : CronSchedule) (t : ℤ) : Prop where
  minute : Int64.ofInt (localTime schedule.location t).minute ∈ schedule.minutes
  hour : Int64.ofInt (localTime schedule.location t).hour ∈ schedule.hours
  month : Int64.ofInt (localTime schedule.location t).date.month ∈ schedule.months
  day : schedule.OnDay (localTime schedule.location t)

theorem CronSchedule.matches_iff (schedule : CronSchedule) (t : ℤ) :
    schedule.matches t = true ↔ schedule.Due t := by
  have hdue : schedule.Due t ↔
      Int64.ofInt (localTime schedule.location t).minute ∈ schedule.minutes ∧
      Int64.ofInt (localTime schedule.location t).hour ∈ schedule.hours ∧
      Int64.ofInt (localTime schedule.location t).date.month ∈ schedule.months ∧
      schedule.OnDay (localTime schedule.location t) :=
    ⟨fun h => ⟨h.minute, h.hour, h.month, h.day⟩, fun h => ⟨h.1, h.2.1, h.2.2.1, h.2.2.2⟩⟩
  rw [hdue]
  unfold CronSchedule.matches CronSchedule.OnDay
  cases schedule.anyDayOfMonth <;> cases schedule.anyDayOfWeek <;> simp

/-! ### The search -/

section search

variable {p : ℤ → Bool} {left : ℕ} {candidate t : ℤ}

/-- What is found matches, and the minutes in front of it do not; induction on what is left. -/
theorem firstMatch_eq_some (h : firstMatch p left candidate = some t) :
    ∃ k < left, t = candidate + k * minute ∧ p t ∧ ∀ j < k, ¬ p (candidate + j * minute) := by
  induction left generalizing candidate with
  | zero => cases h
  | succ left ih =>
    unfold firstMatch at h
    split at h
    · rename_i hp
      cases h
      exact ⟨0, Nat.succ_pos _, by omega, hp, fun _ hj => absurd hj (Nat.not_lt_zero _)⟩
    · rename_i hp
      obtain ⟨k, hk, rfl, hmatch, hbefore⟩ := ih h
      have hshift : ∀ j : ℕ, candidate + ((j + 1 : ℕ) : ℤ) * minute =
          candidate + minute + j * minute := by
        intro j
        push_cast
        ring
      refine ⟨k + 1, Nat.succ_lt_succ hk, (hshift k).symm, hmatch, ?_⟩
      intro j hj
      cases j with
      | zero => simpa using hp
      | succ j =>
        rw [hshift j]
        exact hbefore j (by omega)

/-- When nothing is found, none of the minutes matches; induction on what is left. -/
theorem firstMatch_eq_none (h : firstMatch p left candidate = none) (k : ℕ) (hk : k < left) :
    ¬ p (candidate + k * minute) := by
  induction left generalizing candidate k with
  | zero => omega
  | succ left ih =>
    unfold firstMatch at h
    split at h
    · cases h
    · rename_i hp
      cases k with
      | zero => simpa using hp
      | succ k =>
        have hshift : candidate + ((k + 1 : ℕ) : ℤ) * minute =
            candidate + minute + k * minute := by
          push_cast
          ring
        rw [hshift]
        exact ih h k (by omega)

theorem minute_behind {after : ℤ} (hlt : after < t) (hminute : minute ∣ t) :
    ∃ k : ℕ, t = truncateMinute after + minute + k * minute := by
  have hpos : (0 : ℤ) < minute := by decide
  obtain ⟨n, rfl⟩ := hminute
  have hsplit := Int.mul_ediv_add_emod after minute
  have hmod := Int.emod_lt_of_pos after hpos
  have hmod' := Int.emod_nonneg after hpos.ne'
  have hquot : after / minute < n := by
    by_contra hle
    have := Int.mul_le_mul_of_nonneg_left (not_lt.mp hle) hpos.le
    omega
  refine ⟨(n - after / minute - 1).toNat, ?_⟩
  have htrunc : truncateMinute after = minute * (after / minute) := by
    unfold truncateMinute
    omega
  rw [htrunc, Int.toNat_of_nonneg (by omega)]
  ring

theorem behind_truncate (after : ℤ) (k : ℕ) :
    after < truncateMinute after + minute + k * minute ∧
      minute ∣ truncateMinute after + minute + k * minute := by
  have hpos : (0 : ℤ) < minute := by decide
  have hmod := Int.emod_lt_of_pos after hpos
  have hk := Int.mul_nonneg (Int.natCast_nonneg k) hpos.le
  have hsplit := Int.mul_ediv_add_emod after minute
  refine ⟨by unfold truncateMinute; omega, after / minute + 1 + k, ?_⟩
  unfold truncateMinute
  linarith

end search

/-- The last minute that is tried behind an instant. -/
def cronHorizon (after : ℤ) : ℤ := truncateMinute after + maxMinutes * minute

section next

variable {loadLocation : Text → Option Location} {expression timezone : Text}
  {schedule : CronSchedule} {after next : ℤ} {err : CronScheduleError}

/-- A minute behind an instant and not behind the horizon is one of those that are tried. -/
theorem minute_within {t : ℤ} (hlt : after < t) (hhorizon : t ≤ cronHorizon after)
    (hminute : minute ∣ t) : ∃ k < maxMinutes, t = truncateMinute after + minute + k * minute := by
  have hpos : (0 : ℤ) < minute := by decide
  obtain ⟨k, rfl⟩ := minute_behind hlt hminute
  refine ⟨k, ?_, rfl⟩
  by_contra hbeyond
  have hcast : (maxMinutes : ℤ) ≤ k := by omega
  have := Int.mul_le_mul_of_nonneg_right hcast hpos.le
  unfold cronHorizon at hhorizon
  omega

theorem nextCronTime_ok (haccepted : parseCronSchedule loadLocation expression timezone =
      .ok schedule) (h : nextCronTime loadLocation expression timezone after = .ok next) :
    IsLeast {t | after < t ∧ minute ∣ t ∧ schedule.Due t} next ∧ next ≤ cronHorizon after := by
  have hpos : (0 : ℤ) < minute := by decide
  unfold nextCronTime at h
  rw [haccepted, ok_bind] at h
  split at h
  · rename_i candidate hfound
    cases h
    obtain ⟨k, hk, rfl, hmatch, hbefore⟩ := firstMatch_eq_some hfound
    obtain ⟨hbehind, hminute⟩ := behind_truncate after k
    refine ⟨⟨⟨hbehind, hminute, (schedule.matches_iff _).mp hmatch⟩, ?_⟩, ?_⟩
    · rintro t ⟨hlt, hminute', hdue⟩
      obtain ⟨j, rfl⟩ := minute_behind hlt hminute'
      by_contra hle
      have hjk : j < k := by
        by_contra hkj
        have hcast : (k : ℤ) ≤ j := by omega
        have := Int.mul_le_mul_of_nonneg_right hcast hpos.le
        omega
      exact hbefore j hjk ((schedule.matches_iff _).mpr hdue)
    · have hcast : (k : ℤ) + 1 ≤ maxMinutes := by omega
      have := Int.mul_le_mul_of_nonneg_right hcast hpos.le
      unfold cronHorizon
      linarith
  · cases h

theorem nextCronTime_error (haccepted : parseCronSchedule loadLocation expression timezone =
      .ok schedule) (h : nextCronTime loadLocation expression timezone after = .error err)
    {t : ℤ} (hlt : after < t) (hhorizon : t ≤ cronHorizon after) (hminute : minute ∣ t) :
    ¬ schedule.Due t := by
  intro hdue
  unfold nextCronTime at h
  rw [haccepted, ok_bind] at h
  split at h
  · cases h
  · rename_i hnone
    obtain ⟨k, hk, rfl⟩ := minute_within hlt hhorizon hminute
    exact firstMatch_eq_none hnone k hk ((schedule.matches_iff _).mpr hdue)

end next

/-- The time zones of a system that knows no others. -/
def utcOnly (timezone : Text) : Option Location :=
  if timezone = [] ∨ timezone = bytes "UTC" then some ⟨fun _ => 0⟩ else none

end GoNavi.Syncjob
