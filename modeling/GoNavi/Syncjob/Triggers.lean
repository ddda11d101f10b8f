import GoNavi.Syncjob.NextRun
import Mathlib.Data.List.Dedup

/-! # Triggers of the operating system

`TaskTriggersForSchedule` makes a few triggers of a schedule: one that fires once, some that fire
every so many days, or one that starts anew every day and repeats through it.  A trigger only
wakes a process, which asks the store whether the job is due.

**The triggers cover the schedule** (`triggers_cover_schedule`): every due time has a trigger that
fires at it, or fires less than one repetition behind it.  The daily triggers of a cron expression
do so as long as the clocks of its time zone are not changed. -/

namespace GoNavi.Syncjob

open Scan List

/-! ### Triggers -/

inductive TaskTriggerKind where
  | time
  | daily
  | repetition
  deriving DecidableEq

/-- `DaysInterval` is read by daily triggers only, where 0 stands for 1, and
`RepetitionIntervalSeconds` by repetitions only. -/
structure TaskTrigger where
  kind : TaskTriggerKind
  startAt : ℤ
  daysInterval : Int64
  repetitionIntervalSeconds : Int64
  deriving DecidableEq

def taskTriggerMaxExactDailyTriggers : ℕ := 24

def taskTriggerMinRepetitionSeconds : Int64 := 300

def taskTriggerMaxRepetitionSeconds : Int64 := 3600

inductive TriggerError where
  | runAtRequired
  | intervalSecondsRequired
  | cron (err : CronScheduleError)
  | noExecutionTime
  /-- The program stops at a division by zero. -/
  | panics

def timeTrigger (startAt : ℤ) : TaskTrigger := ⟨.time, startAt, 0, 0⟩

def dailyTrigger (startAt : ℤ) (daysInterval : Int64) : TaskTrigger :=
  ⟨.daily, startAt, daysInterval, 0⟩

def repetitionTrigger (startAt : ℤ) (seconds : Int64) : TaskTrigger :=
  ⟨.repetition, startAt, 0, seconds⟩

/-! ### Local times -/

/-- The seconds that the clocks of a location show, counted as if they showed UTC. -/
def localSeconds (location : Location) (t : ℤ) : ℤ :=
  t / second + location.offset (t / second)

/-- `time.Date`: the offset is looked up twice, at the shown time and at what it then stands
for. -/
def timeDate (location : Location) (days secondsOfDay : ℤ) : ℤ :=
  let shown := days * 86400 + secondsOfDay
  (shown - location.offset (shown - location.offset shown)) * second

/-- `t.AddDate(0, 0, 1)`, of a whole second. -/
def addDay (location : Location) (t : ℤ) : ℤ :=
  timeDate location (localSeconds location t / 86400 + 1) (localSeconds location t % 86400)

/-- `nextDailyOccurrence`, for the hour and the minute of the clock. -/
def nextDailyOccurrence (location : Location) (now hour minute : ℤ) : ℤ :=
  let candidate := timeDate location (localSeconds location now / 86400)
    (hour * 3600 + minute * 60)
  if candidate > now then candidate else addDay location candidate

/-- `nextAlignedOccurrence`. -/
def nextAlignedOccurrence (spec : ScheduleSpec) (now : ℤ) : Except TriggerError ℤ :=
  let interval := secondsDuration spec.intervalSeconds
  if spec.anchorAt > 0 ∧ ofUnixMilli spec.anchorAt ≥ now then .ok (ofUnixMilli spec.anchorAt)
  else if interval = 0 then .error .panics
  else
    let anchor := if spec.anchorAt > 0 then ofUnixMilli spec.anchorAt else now
    .ok (pointBehind anchor now interval)

/-! ### Grids -/

structure GridPoint where
  hour : Int64
  minute : Int64
  deriving DecidableEq

/-- `sortedKeys`, of the map that the values are the keys of. -/
def sortedKeys (values : List Int64) : List Int64 :=
  values.dedup.insertionSort fun a b => a ≤ b

def GridPoint.before (p q : GridPoint) : Bool :=
  p.hour < q.hour ∨ (p.hour = q.hour ∧ p.minute ≤ q.minute)

def minuteGrid (hours minutes : List Int64) : List GridPoint :=
  (hours.flatMap fun hour => minutes.map fun minute => ⟨hour, minute⟩).insertionSort
    fun p q => p.before q

/-- The loop of `smallestGridGapSeconds`. -/
def smallestGap : Int64 → List Int64 → Int64
  | smallest, a :: b :: rest =>
    let gap := b - a
    smallestGap (if gap > 0 ∧ gap < smallest then gap else smallest) (b :: rest)
  | smallest, _ => smallest

def smallestGridGapSeconds (grid : List GridPoint) : Int64 :=
  if grid.length < 2 then 86400
  else
    let minutesOfDay := grid.map fun point => point.hour * 60 + point.minute
    let smallest := 1440 - minutesOfDay.getLastD 0 + minutesOfDay.headD 0
    smallestGap smallest minutesOfDay * 60

/-! ### The plan -/

section plan

variable (loadLocation : Text → Option Location) (system : Location)

/-- `intervalTaskTriggers`; `system` is the location of `now`. -/
def intervalTaskTriggers (spec : ScheduleSpec) (now : ℤ) : Except TriggerError (List TaskTrigger) :=
  if spec.intervalSeconds ≤ 0 then .error .intervalSecondsRequired
  else if spec.intervalSeconds % 86400 = 0 then do
    let days := spec.intervalSeconds / 86400
    let startAt ← if spec.anchorAt > 0 then nextAlignedOccurrence spec now
      else .ok (nextDailyOccurrence system now (localTime system now).hour
        (localTime system now).minute)
    return [dailyTrigger startAt days]
  else if spec.intervalSeconds > 86400 then do
    let startAt ← nextAlignedOccurrence spec now
    return [repetitionTrigger startAt taskTriggerMaxRepetitionSeconds]
  else do
    let startAt ← nextAlignedOccurrence spec now
    return [repetitionTrigger startAt spec.intervalSeconds]

/-- The interval of a repetition, which is neither too short nor too long. -/
def repetitionSeconds (grid : List GridPoint) : Int64 :=
  let gapSeconds := smallestGridGapSeconds grid
  let gapSeconds := if gapSeconds < taskTriggerMinRepetitionSeconds then
    taskTriggerMinRepetitionSeconds else gapSeconds
  if gapSeconds > taskTriggerMaxRepetitionSeconds then taskTriggerMaxRepetitionSeconds
  else gapSeconds

/-- The daily trigger of a point of the grid; its clock is read on the date of `now` in the
system's location. -/
def gridTrigger (location : Location) (now : ℤ) (point : GridPoint) : TaskTrigger :=
  let clock := localTime location (timeDate location (localSeconds system now / 86400)
    (point.hour.toInt * 3600 + point.minute.toInt * 60))
  dailyTrigger (nextDailyOccurrence location now clock.hour clock.minute) 0

/-- `cronTaskTriggers`. -/
def cronTaskTriggers (spec : ScheduleSpec) (now : ℤ) : Except TriggerError (List TaskTrigger) := do
  let schedule ← (parseCronSchedule loadLocation spec.cronExpression spec.timezone).mapError .cron
  let grid := minuteGrid (sortedKeys schedule.hours) (sortedKeys schedule.minutes)
  if grid.length = 0 then .error .noExecutionTime
  else if grid.length > taskTriggerMaxExactDailyTriggers then
    let startAt ← (nextCronTime loadLocation spec.cronExpression spec.timezone now).mapError .cron
    return [repetitionTrigger startAt (repetitionSeconds grid)]
  else return grid.map (gridTrigger system schedule.location now)

/-- `TaskTriggersForSchedule`. -/
def taskTriggersForSchedule (spec : ScheduleSpec) (now : ℤ) :
    Except TriggerError (List TaskTrigger) :=
  match spec.kind with
  | .manual | .continuous => .ok []
  | .once =>
    if spec.runAt ≤ 0 then .error .runAtRequired
    else .ok [timeTrigger (ofUnixMilli spec.runAt)]
  | .interval => intervalTaskTriggers system spec now
  | .cron => cronTaskTriggers loadLocation system spec now

end plan

/-! ### When triggers fire -/

def day : ℤ := 86400 * second

/-- The instants at which a trigger fires: a daily one every so many days, a repetition every day
anew and then in its interval until the next day. -/
inductive TaskTrigger.Fires (trigger : TaskTrigger) : ℤ → Prop where
  | time (hkind : trigger.kind = .time) : trigger.Fires trigger.startAt
  | daily (hkind : trigger.kind = .daily) (n : ℕ) :
      trigger.Fires (trigger.startAt + n * (max trigger.daysInterval.toInt 1 * day))
  | repetition (hkind : trigger.kind = .repetition) (days n : ℕ)
      (hday : n * trigger.repetitionIntervalSeconds.toInt < 86400) :
      trigger.Fires (trigger.startAt + days * day +
        n * (trigger.repetitionIntervalSeconds.toInt * second))

/-- The trigger fires at the instant, or less than one repetition behind it. -/
def TaskTrigger.Wakes (trigger : TaskTrigger) (t : ℤ) : Prop :=
  ∃ u, trigger.Fires u ∧ t ≤ u ∧ u < t + trigger.repetitionIntervalSeconds.toInt * second

theorem wakes_of_repetition {startAt t : ℤ} {seconds : Int64} (hpos : 0 < seconds.toInt)
    (hle : startAt ≤ t) : (repetitionTrigger startAt seconds).Wakes t := by
  have hday : (0 : ℤ) < day := by decide
  have hsecond : (0 : ℤ) < second := by decide
  have hstep : 0 < seconds.toInt * second := Int.mul_pos hpos hsecond
  obtain ⟨days, hdays⟩ := Int.eq_ofNat_of_zero_le (Int.ediv_nonneg (sub_nonneg.mpr hle) hday.le)
  have hsplit := Int.mul_ediv_add_emod (t - startAt) day
  have hrest := Int.emod_nonneg (t - startAt) hday.ne'
  have hrest' := Int.emod_lt_of_pos (t - startAt) hday
  generalize (t - startAt) % day = rest at *
  rw [hdays, mul_comm] at hsplit
  -- the first repetition that is not in front of the instant
  have hceil := Int.mul_ediv_add_emod (rest + seconds.toInt * second - 1) (seconds.toInt * second)
  have hceil' := Int.emod_nonneg (rest + seconds.toInt * second - 1) hstep.ne'
  have hceil'' := Int.emod_lt_of_pos (rest + seconds.toInt * second - 1) hstep
  obtain ⟨n, hn⟩ := Int.eq_ofNat_of_zero_le
    (Int.ediv_nonneg (show 0 ≤ rest + seconds.toInt * second - 1 by omega) hstep.le)
  rw [hn, mul_comm] at hceil
  by_cases hwithin : n * seconds.toInt < 86400
  · refine ⟨_, .repetition rfl days n hwithin, ?_, ?_⟩
    · dsimp only [repetitionTrigger]
      linarith
    · dsimp only [repetitionTrigger]
      linarith
  · refine ⟨_, .repetition rfl (days + 1) 0 (by simp), ?_, ?_⟩
    · dsimp only [repetitionTrigger]
      push_cast
      linarith
    · have hwhole : day ≤ n * (seconds.toInt * second) := by
        have := Int.mul_le_mul_of_nonneg_right (not_lt.mp hwithin) hsecond.le
        unfold day
        linarith
      dsimp only [repetitionTrigger]
      push_cast
      linarith

/-! ### Intervals -/

section intervals

variable {spec : ScheduleSpec} {now t : ℤ}

/-- The next point of the grid is not farther from the anchor than a duration. -/
def PointFits (spec : ScheduleSpec) (now : ℤ) : Prop :=
  0 < spec.interval ∧ (now ≤ spec.anchor ∨
    ((now - spec.anchor) / spec.interval + 1) * spec.interval < 2 ^ 63)

theorem apart_of_grid {anchor interval start : ℤ} (hpos : 0 < interval)
    (hstart : start ∈ intervalGrid anchor interval) (ht : t ∈ intervalGrid anchor interval)
    (hle : start ≤ t) : ∃ n : ℕ, t = start + n * interval := by
  obtain ⟨k, rfl⟩ := hstart
  obtain ⟨m, rfl⟩ := ht
  have hkm : (k : ℤ) ≤ m := by
    by_contra hlt
    have := Int.mul_lt_mul_of_pos_right (not_le.mp hlt) hpos
    omega
  refine ⟨m - k, ?_⟩
  rw [Nat.cast_sub (by omega)]
  ring

/-- The aligned start is a point of the grid, and the later points are whole intervals behind
it. -/
theorem nextAlignedOccurrence_spec (hanchor : 0 < spec.anchorAt) (hfits : PointFits spec now) :
    ∃ start, nextAlignedOccurrence spec now = .ok start ∧
      ∀ t ∈ intervalGrid spec.anchor spec.interval, now < t →
        ∃ n : ℕ, t = start + n * spec.interval := by
  obtain ⟨hpos, hnear⟩ := hfits
  unfold nextAlignedOccurrence
  by_cases hlate : ofUnixMilli spec.anchorAt ≥ now
  · refine ⟨spec.anchor, if_pos ⟨hanchor, hlate⟩, ?_⟩
    rintro t ⟨k, rfl⟩ _
    exact ⟨k, rfl⟩
  · have hle : spec.anchor ≤ now := (not_le.mp hlate).le
    have hdistance := hnear.resolve_left hlate
    have hquot : 0 ≤ (now - spec.anchor) / spec.interval := Int.ediv_nonneg (by omega) hpos.le
    have hlength : spec.interval ≤
        ((now - spec.anchor) / spec.interval + 1) * spec.interval :=
      le_mul_of_one_le_left hpos.le (by omega)
    have hexact : (secondsDuration spec.intervalSeconds).toInt = spec.interval :=
      toInt_secondsDuration_of_lt hpos (lt_of_le_of_lt hlength hdistance)
    have hnotZero : secondsDuration spec.intervalSeconds ≠ 0 := by
      intro hzero
      rw [hzero, Int64.toInt_zero] at hexact
      omega
    have hpoint : pointBehind spec.anchor now (secondsDuration spec.intervalSeconds) =
        spec.anchor + ((now - spec.anchor) / spec.interval + 1) * spec.interval := by
      rw [← hexact] at hpos hdistance ⊢
      exact pointBehind_eq hpos hle hdistance
    have hleast := isLeast_point hpos hle
    refine ⟨spec.anchor + ((now - spec.anchor) / spec.interval + 1) * spec.interval, ?_, ?_⟩
    · rw [if_neg (fun h => hlate h.2), if_neg hnotZero, if_pos hanchor]
      exact congrArg Except.ok hpoint
    · intro t ht hlt
      exact apart_of_grid hpos hleast.1.2 ht (hleast.2 ⟨hlt, ht⟩)

theorem wholeDays_iff (hpos : 0 < spec.intervalSeconds) :
    spec.intervalSeconds % 86400 = 0 ↔ 86400 ∣ spec.intervalSeconds.toInt := by
  have hseconds := Int64.lt_iff_toInt_lt.mp hpos
  rw [Int64.toInt_zero] at hseconds
  rw [← Int64.toInt_inj, Int64.toInt_mod]
  change Int.tmod _ 86400 = 0 ↔ _
  rw [Int.tmod_eq_emod_of_nonneg hseconds.le]
  exact Int.dvd_iff_emod_eq_zero.symm

theorem fires_of_days {startAt : ℤ} (hpos : 0 < spec.intervalSeconds)
    (hdays : spec.intervalSeconds % 86400 = 0) (n : ℕ) :
    (dailyTrigger startAt (spec.intervalSeconds / 86400)).Fires (startAt + n * spec.interval) := by
  have hseconds := Int64.lt_iff_toInt_lt.mp hpos
  rw [Int64.toInt_zero] at hseconds
  have hmod := (wholeDays_iff hpos).mp hdays
  have hdiv : (spec.intervalSeconds / 86400).toInt = spec.intervalSeconds.toInt / 86400 := by
    have hbound := Int64.toInt_lt spec.intervalSeconds
    rw [Int64.toInt_div]
    change Int.bmod (Int.tdiv _ 86400) _ = _
    rw [Int.tdiv_eq_ediv_of_nonneg hseconds.le]
    apply Int.bmod_eq_of_le <;> omega
  have hlength : spec.interval = max (spec.intervalSeconds / 86400).toInt 1 * day := by
    have hmax : max (spec.intervalSeconds / 86400).toInt 1 =
        spec.intervalSeconds.toInt / 86400 := by
      rw [hdiv]
      omega
    rw [hmax]
    unfold ScheduleSpec.interval day
    rw [← mul_assoc]
    congr 1
    omega
  rw [hlength]
  exact .daily rfl n

theorem fires_of_divides {startAt : ℤ} (hpos : 0 < spec.intervalSeconds)
    (hdivides : spec.intervalSeconds.toInt ∣ 86400) (n : ℕ) :
    (repetitionTrigger startAt spec.intervalSeconds).Fires (startAt + n * spec.interval) := by
  have hseconds := Int64.lt_iff_toInt_lt.mp hpos
  rw [Int64.toInt_zero] at hseconds
  obtain ⟨times, htimes⟩ := hdivides
  have htimes' : 0 < times := by
    by_contra hle
    have := Int.mul_nonpos_of_nonneg_of_nonpos hseconds.le (not_lt.mp hle)
    omega
  obtain ⟨p, rfl⟩ := Int.eq_ofNat_of_zero_le htimes'.le
  have hsplit := Nat.div_add_mod n p
  have hrest : n % p < p := Nat.mod_lt n (by omega)
  have hwithin : ((n % p : ℕ) : ℤ) * spec.intervalSeconds.toInt < 86400 := by
    rw [htimes, mul_comm]
    exact Int.mul_lt_mul_of_pos_left (by exact_mod_cast hrest) hseconds
  have hfires : (repetitionTrigger startAt spec.intervalSeconds).Fires (startAt +
      (n / p : ℕ) * day + (n % p : ℕ) * (spec.intervalSeconds.toInt * second)) :=
    .repetition rfl (n / p) (n % p) hwithin
  have hsame : startAt + n * spec.interval = startAt + (n / p : ℕ) * day +
      (n % p : ℕ) * (spec.intervalSeconds.toInt * second) := by
    have hn : (n : ℤ) = p * (n / p : ℕ) + (n % p : ℕ) := by exact_mod_cast hsplit.symm
    unfold ScheduleSpec.interval day
    rw [htimes, hn]
    ring
  rw [hsame]
  exact hfires

/-- **The trigger of an interval** fires at every point of the grid, when the interval is made of
whole days or divides one, and otherwise wakes at it. -/
theorem interval_covered {system : Location} {triggers : List TaskTrigger}
    (hplan : intervalTaskTriggers system spec now = .ok triggers) (hanchor : 0 < spec.anchorAt)
    (hfits : PointFits spec now) (ht : t ∈ intervalGrid spec.anchor spec.interval)
    (hlt : now < t) :
    ∃ trigger ∈ triggers,
      ((86400 ∣ spec.intervalSeconds.toInt ∨ spec.intervalSeconds.toInt ∣ 86400) →
        trigger.Fires t) ∧
      (trigger.Fires t ∨ trigger.Wakes t) := by
  obtain ⟨start, hstart, hlater⟩ := nextAlignedOccurrence_spec hanchor hfits
  obtain ⟨n, rfl⟩ := hlater t ht hlt
  have hn := Int.mul_nonneg (Int.natCast_nonneg n) hfits.1.le
  unfold intervalTaskTriggers at hplan
  split at hplan
  · cases hplan
  · rename_i hpos
    have hpos := Int64.not_le.mp hpos
    split at hplan
    · rename_i hdays
      rw [hstart] at hplan
      cases hplan
      have hfires : (dailyTrigger start (spec.intervalSeconds / 86400)).Fires
          (start + n * spec.interval) := fires_of_days hpos hdays n
      exact ⟨_, mem_singleton_self _, fun _ => hfires, .inl hfires⟩
    · rename_i hdays
      have hnotDays : ¬ 86400 ∣ spec.intervalSeconds.toInt := fun h =>
        hdays ((wholeDays_iff hpos).mpr h)
      rw [hstart] at hplan
      split at hplan
      · rename_i hlong
        cases hplan
        rw [gt_iff_lt, Int64.lt_iff_toInt_lt] at hlong
        change 86400 < _ at hlong
        refine ⟨_, mem_singleton_self _, ?_, .inr (wakes_of_repetition (by decide) (by omega))⟩
        rintro (hdays' | hdivides)
        · exact absurd hdays' hnotDays
        · have := Int.le_of_dvd (by decide) hdivides
          omega
      · cases hplan
        refine ⟨_, mem_singleton_self _, ?_, .inr ?_⟩
        · rintro (hdays' | hdivides)
          · exact absurd hdays' hnotDays
          · exact fires_of_divides hpos hdivides n
        · exact wakes_of_repetition (Int64.lt_iff_toInt_lt.mp hpos) (by omega)

end intervals

/-! ### Daily times -/

section daily

variable {system location : Location} {now t c : ℤ}

/-- The clocks of the location are not changed from four days before `now` until the instant, and
until four days behind `now`; they, and those of the system, are at most a day ahead or behind. -/
structure Steady (system location : Location) (now t c : ℤ) : Prop where
  offset : ∀ s, now / second - 4 * 86400 ≤ s →
    (s ≤ now / second + 4 * 86400 ∨ s ≤ t / second) → location.offset s = c
  ahead : c ≤ 86400
  behind : -86400 ≤ c
  systemAhead : system.offset (now / second) ≤ 86400
  systemBehind : -86400 ≤ system.offset (now / second)
  wholeMinutes : 60 ∣ c

/-- A time near `now` is where its clock shows it. -/
theorem timeDate_of_steady (h : Steady system location now t c) {days secondsOfDay : ℤ}
    (hlow : now / second - 2 * 86400 ≤ days * 86400 + secondsOfDay)
    (hhigh : days * 86400 + secondsOfDay ≤ now / second + 3 * 86400) :
    timeDate location days secondsOfDay = (days * 86400 + secondsOfDay - c) * second := by
  have hahead := h.ahead
  have hbehind := h.behind
  unfold timeDate
  dsimp only
  rw [h.offset (days * 86400 + secondsOfDay) (by omega) (by omega),
    h.offset (days * 86400 + secondsOfDay - c) (by omega) (by omega)]

theorem second_pos : (0 : ℤ) < second := by decide

theorem mul_second_ediv (s : ℤ) : s * second / second = s :=
  Int.mul_ediv_cancel _ second_pos.ne'

/-- The clock of a grid point shows the hour and the minute of the point. -/
theorem clock_of_steady (h : Steady system location now t c) {hour minute : ℤ} (hhour : 0 ≤ hour)
    (hhour' : hour < 24) (hminute : 0 ≤ minute) (hminute' : minute < 60) :
    let clock := localTime location (timeDate location (localSeconds system now / 86400)
      (hour * 3600 + minute * 60))
    clock.hour = hour ∧ clock.minute = minute := by
  have hahead := h.ahead
  have hbehind := h.behind
  have hsystem := h.systemAhead
  have hsystem' := h.systemBehind
  have hnear : now / second - 2 * 86400 ≤
      localSeconds system now / 86400 * 86400 + (hour * 3600 + minute * 60) := by
    unfold localSeconds
    omega
  have hnear' : localSeconds system now / 86400 * 86400 + (hour * 3600 + minute * 60) ≤
      now / second + 3 * 86400 := by
    unfold localSeconds
    omega
  rw [timeDate_of_steady h hnear hnear']
  unfold localTime
  dsimp only
  rw [mul_second_ediv, h.offset _ (by omega) (by omega)]
  generalize localSeconds system now / 86400 = days
  constructor <;> omega

/-- **The next day time** is the first one behind `now`, and the later ones are whole days
behind it. -/
theorem nextDailyOccurrence_spec (h : Steady system location now t c) {secondsOfDay : ℤ}
    {hour minute : ℤ} (hsum : hour * 3600 + minute * 60 = secondsOfDay) (hlow : 0 ≤ secondsOfDay)
    (hhigh : secondsOfDay < 86400) (hlt : now < t) (hwhole : second ∣ t)
    (hshown : (t / second + c) % 86400 = secondsOfDay) :
    ∃ n : ℕ, t = nextDailyOccurrence location now hour minute + n * day := by
  have hahead := h.ahead
  have hbehind := h.behind
  have hnow : location.offset (now / second) = c := h.offset _ (by omega) (by omega)
  obtain ⟨today, htoday⟩ : ∃ today, localSeconds location now / 86400 = today := ⟨_, rfl⟩
  have hnear : now / second + c - 86400 < today * 86400 ∧ today * 86400 ≤ now / second + c := by
    rw [← htoday]
    unfold localSeconds
    rw [hnow]
    omega
  obtain ⟨candidate, hsecond⟩ : ∃ s, today * 86400 + secondsOfDay - c = s := ⟨_, rfl⟩
  have hcandidate : timeDate location today secondsOfDay = candidate * second := by
    rw [timeDate_of_steady h (by omega) (by omega), hsecond]
  obtain ⟨s, rfl⟩ := hwhole
  rw [mul_comm second s] at hlt hshown ⊢
  rw [mul_second_ediv] at hshown
  have hlater : now / second < s := (Int.ediv_lt_iff_lt_mul second_pos).mpr hlt
  have hdays := Int.mul_ediv_add_emod (s + c) 86400
  unfold nextDailyOccurrence
  rw [htoday, hsum, hcandidate]
  by_cases hbehindNow : candidate * second > now
  · rw [if_pos hbehindNow]
    refine ⟨((s + c) / 86400 - today).toNat, ?_⟩
    rw [Int.toNat_of_nonneg (by omega)]
    unfold day
    rw [← mul_assoc, ← add_mul]
    congr 1
    omega
  · rw [if_neg hbehindNow]
    have hbefore : candidate < s := by
      by_contra hle
      have := Int.mul_le_mul_of_nonneg_right (not_lt.mp hle) second_pos.le
      omega
    have hshownThen : localSeconds location (candidate * second) =
        today * 86400 + secondsOfDay := by
      unfold localSeconds
      rw [mul_second_ediv, h.offset candidate (by omega) (by omega)]
      omega
    have htomorrow : addDay location (candidate * second) = (candidate + 86400) * second := by
      have hday : (today * 86400 + secondsOfDay) / 86400 = today := by omega
      have hrest : (today * 86400 + secondsOfDay) % 86400 = secondsOfDay := by omega
      unfold addDay
      rw [hshownThen, hday, hrest, timeDate_of_steady h (by omega) (by omega)]
      congr 1
      omega
    rw [htomorrow]
    refine ⟨((s + c) / 86400 - today - 1).toNat, ?_⟩
    rw [Int.toNat_of_nonneg (by omega)]
    unfold day
    rw [← mul_assoc, ← add_mul]
    congr 1
    omega

end daily

/-! ### Grids of a cron expression -/

section grids

variable {system : Location} {schedule : CronSchedule} {now t c : ℤ}

/-- The grid of a schedule. -/
def CronSchedule.grid (schedule : CronSchedule) : List GridPoint :=
  minuteGrid (sortedKeys schedule.hours) (sortedKeys schedule.minutes)

theorem mem_sortedKeys {values : List Int64} {v : Int64} : v ∈ sortedKeys values ↔ v ∈ values := by
  unfold sortedKeys
  rw [mem_insertionSort, mem_dedup]

theorem mem_grid {point : GridPoint} :
    point ∈ schedule.grid ↔ point.hour ∈ schedule.hours ∧ point.minute ∈ schedule.minutes := by
  unfold CronSchedule.grid minuteGrid
  simp only [mem_insertionSort, mem_flatMap, mem_map, mem_sortedKeys]
  constructor
  · rintro ⟨hour, hhour, minute, hminute, rfl⟩
    exact ⟨hhour, hminute⟩
  · rintro ⟨hhour, hminute⟩
    exact ⟨point.hour, hhour, point.minute, hminute, rfl⟩

theorem toInt_ofInt_small {v : ℤ} (hlow : 0 ≤ v) (hhigh : v < 1440) :
    (Int64.ofInt v).toInt = v := by
  have hsize : (Int64.size : ℤ) = 2 ^ 64 := rfl
  rw [Int64.toInt_ofInt]
  apply Int.bmod_eq_of_le <;> omega

/-- What the clocks show at a due minute is a point of the grid. -/
theorem grid_of_due (hdue : schedule.Due t) {shown : ℤ}
    (hshown : t / second + schedule.location.offset (t / second) = shown) :
    ∃ point ∈ schedule.grid, point.hour.toInt = shown / 3600 % 24 ∧
      point.minute.toInt = shown / 60 % 60 := by
  have hhour := hdue.hour
  have hminute := hdue.minute
  unfold localTime at hhour hminute
  dsimp only at hhour hminute
  rw [hshown] at hhour hminute
  exact ⟨⟨_, _⟩, mem_grid.mpr ⟨hhour, hminute⟩, toInt_ofInt_small (by omega) (by omega),
    toInt_ofInt_small (by omega) (by omega)⟩

/-- **A due minute is whole days behind the start of a daily trigger.** -/
theorem daily_covered (h : Steady system schedule.location now t c) (hlt : now < t)
    (hminute : minute ∣ t) (hdue : schedule.Due t) :
    ∃ trigger ∈ schedule.grid.map (gridTrigger system schedule.location now),
      ∃ n : ℕ, t = trigger.startAt + n * day := by
  obtain ⟨m, rfl⟩ := hminute
  have hseconds : minute * m / second = 60 * m := by
    unfold minute
    rw [mul_right_comm, mul_second_ediv]
  obtain ⟨point, hpoint, hhour, hminute⟩ := grid_of_due hdue rfl
  rw [h.offset _ (by have := Int.ediv_le_ediv second_pos hlt.le; omega) (.inr le_rfl), hseconds]
    at hhour hminute
  obtain ⟨k, hk⟩ := h.wholeMinutes
  have hclock : let clock := localTime schedule.location (timeDate schedule.location
        (localSeconds system now / 86400) (point.hour.toInt * 3600 + point.minute.toInt * 60))
      clock.hour = point.hour.toInt ∧ clock.minute = point.minute.toInt := by
    apply clock_of_steady h <;> omega
  obtain ⟨hclockHour, hclockMinute⟩ := hclock
  refine ⟨_, mem_map_of_mem hpoint, ?_⟩
  unfold gridTrigger dailyTrigger
  dsimp only
  rw [hclockHour, hclockMinute]
  refine nextDailyOccurrence_spec h rfl (by omega) (by omega) hlt ?_ ?_
  · exact ((show second ∣ minute by decide).mul_right _)
  · rw [hseconds]
    omega

/-! ### The smallest gap -/

/-- The loop finds a gap that no two times are closer than; induction on the times. -/
theorem smallestGap_le {l : List Int64} (hsorted : l.Pairwise fun a b => a.toInt ≤ b.toInt)
    (hrange : ∀ v ∈ l, 0 ≤ v.toInt ∧ v.toInt < 1440) (smallest : Int64) :
    (smallestGap smallest l).toInt ≤ smallest.toInt ∧
      ∀ a ∈ l, ∀ b ∈ l, a.toInt < b.toInt → (smallestGap smallest l).toInt ≤ b.toInt - a.toInt := by
  induction l generalizing smallest with
  | nil => exact ⟨le_rfl, forall_mem_nil _⟩
  | cons first rest ih =>
    obtain ⟨hfirst, hrest⟩ := pairwise_cons.mp hsorted
    cases rest with
    | nil =>
      refine ⟨le_rfl, ?_⟩
      intro a ha b hb hlt
      rw [mem_singleton.mp ha, mem_singleton.mp hb] at hlt
      exact absurd hlt (lt_irrefl _)
    | cons next rest =>
      have hfirstRange := hrange first mem_cons_self
      have hnextRange := hrange next (mem_cons_of_mem _ mem_cons_self)
      have hgap : (next - first).toInt = next.toInt - first.toInt :=
        Word.toInt_sub (by omega) (by omega)
      unfold smallestGap
      dsimp only
      set smaller := if next - first > 0 ∧ next - first < smallest then next - first
        else smallest with hsmaller
      have hsmaller_le : smaller.toInt ≤ smallest.toInt ∧
          (first.toInt < next.toInt → smaller.toInt ≤ next.toInt - first.toInt) := by
        rw [hsmaller]
        split
        · rename_i htaken
          have := Int64.lt_iff_toInt_lt.mp htaken.2
          omega
        · rename_i hkept
          refine ⟨le_rfl, fun hlt => ?_⟩
          by_contra hlarge
          apply hkept
          rw [gt_iff_lt, Int64.lt_iff_toInt_lt, Int64.lt_iff_toInt_lt, Int64.toInt_zero]
          omega
      obtain ⟨hle, hpairs⟩ := ih hrest (fun v hv => hrange v (mem_cons_of_mem _ hv)) smaller
      refine ⟨hle.trans hsmaller_le.1, ?_⟩
      have hnext : ∀ b ∈ next :: rest, next.toInt ≤ b.toInt := by
        intro b hb
        cases mem_cons.mp hb with
        | inl heq => rw [heq]
        | inr hb => exact (pairwise_cons.mp hrest).1 b hb
      intro a ha b hb hlt
      cases mem_cons.mp ha with
      | inl hafirst =>
        cases mem_cons.mp hb with
        | inl hbfirst =>
          rw [hafirst, hbfirst] at hlt
          exact absurd hlt (lt_irrefl _)
        | inr hb =>
          rw [hafirst] at hlt ⊢
          have hbound := hnext b hb
          by_cases hapart : first.toInt < next.toInt
          · have := hsmaller_le.2 hapart
            omega
          · have hsame := hfirst next mem_cons_self
            have := hpairs next mem_cons_self b hb (by omega)
            omega
      | inr ha =>
        cases mem_cons.mp hb with
        | inl hbfirst =>
          have := hfirst a ha
          rw [hbfirst] at hlt
          omega
        | inr hb => exact hpairs a ha b hb hlt

/-- A gap is not empty; induction on the times. -/
theorem smallestGap_pos {l : List Int64} {smallest : Int64} (hpos : 0 < smallest.toInt) :
    0 < (smallestGap smallest l).toInt := by
  induction l generalizing smallest with
  | nil => exact hpos
  | cons first rest ih =>
    cases rest with
    | nil => exact hpos
    | cons next rest =>
      unfold smallestGap
      apply ih
      split
      · rename_i htaken
        exact Int64.lt_iff_toInt_lt.mp htaken.1
      · exact hpos

theorem getLastD_of_ne_nil {l : List Int64} (hne : l ≠ []) : l.getLastD 0 = l.getLast hne := by
  rw [getLastD_eq_getLast?, getLast?_eq_some_getLast hne, Option.getD_some]

theorem ends_mem {l : List Int64} (hne : l ≠ []) : l.headD 0 ∈ l ∧ l.getLastD 0 ∈ l := by
  refine ⟨?_, ?_⟩
  · cases l with
    | nil => exact absurd rfl hne
    | cons first rest => exact mem_cons_self
  · rw [getLastD_of_ne_nil hne]
    exact getLast_mem hne

/-- The times of a day lie between the first and the last one. -/
theorem between_of_sorted {l : List Int64} (hsorted : l.Pairwise fun a b => a.toInt ≤ b.toInt)
    {v : Int64} (hv : v ∈ l) :
    (l.headD 0).toInt ≤ v.toInt ∧ v.toInt ≤ (l.getLastD 0).toInt := by
  have hne := ne_nil_of_mem hv
  constructor
  · cases l with
    | nil => exact absurd rfl hne
    | cons first rest =>
      cases mem_cons.mp hv with
      | inl heq => exact (congrArg Int64.toInt heq).ge
      | inr hrest => exact (pairwise_cons.mp hsorted).1 v hrest
  · rw [getLastD_of_ne_nil hne]
    rw [← dropLast_append_getLast hne] at hsorted hv
    cases mem_append.mp hv with
    | inl hfront =>
      exact (pairwise_append.mp hsorted).2.2 v hfront _ (mem_singleton_self _)
    | inr heq => exact (congrArg Int64.toInt (mem_singleton.mp heq)).le

/-- The hours and the minutes are those of a day, as those of fields that mean their grammar. -/
structure CronSchedule.InRange (schedule : CronSchedule) : Prop where
  hours : ∀ v ∈ schedule.hours, 0 ≤ v.toInt ∧ v.toInt < 24
  minutes : ∀ v ∈ schedule.minutes, 0 ≤ v.toInt ∧ v.toInt < 60

/-- The minute of the day. -/
def GridPoint.minuteOfDay (point : GridPoint) : ℤ := point.hour.toInt * 60 + point.minute.toInt

theorem toInt_minuteOfDay (h : schedule.InRange) {point : GridPoint}
    (hpoint : point ∈ schedule.grid) :
    (point.hour * 60 + point.minute).toInt = point.minuteOfDay ∧ 0 ≤ point.minuteOfDay ∧
      point.minuteOfDay < 1440 := by
  obtain ⟨hhour, hminute⟩ := mem_grid.mp hpoint
  have hhours := h.hours _ hhour
  have hminutes := h.minutes _ hminute
  have hsixty : (60 : Int64).toInt = 60 := rfl
  have hmul : (point.hour * 60).toInt = point.hour.toInt * 60 := by
    rw [Int64.toInt_mul, hsixty]
    apply Int.bmod_eq_of_le <;> omega
  unfold GridPoint.minuteOfDay
  refine ⟨?_, by omega, by omega⟩
  rw [Word.toInt_add (by omega) (by omega), hmul]

theorem sorted_grid (h : schedule.InRange) :
    (schedule.grid.map fun point => point.hour * 60 + point.minute).Pairwise
      fun a b => a.toInt ≤ b.toInt := by
  have htotal : Std.Total fun p q : GridPoint => p.before q = true := ⟨by
    intro p q
    unfold GridPoint.before
    simp only [decide_eq_true_eq, Int64.lt_iff_toInt_lt, Int64.le_iff_toInt_le,
      ← Int64.toInt_inj]
    omega⟩
  have htrans : IsTrans GridPoint fun p q => p.before q = true := ⟨by
    intro p q r
    unfold GridPoint.before
    simp only [decide_eq_true_eq, Int64.lt_iff_toInt_lt, Int64.le_iff_toInt_le,
      ← Int64.toInt_inj]
    omega⟩
  have hsorted : schedule.grid.Pairwise fun p q => p.before q = true :=
    pairwise_insertionSort _ _
  rw [pairwise_map]
  refine List.Pairwise.imp_of_mem ?_ hsorted
  intro p q hp hq hbefore
  rw [(toInt_minuteOfDay h hp).1, (toInt_minuteOfDay h hq).1]
  have hminute := h.minutes _ (mem_grid.mp hp).2
  have hminute' := h.minutes _ (mem_grid.mp hq).2
  unfold GridPoint.before at hbefore
  simp only [decide_eq_true_eq, Int64.lt_iff_toInt_lt, Int64.le_iff_toInt_le,
    ← Int64.toInt_inj] at hbefore
  unfold GridPoint.minuteOfDay
  omega

/-- **The gap of a grid** is not larger than the distance of two of its times, on one day or over
midnight. -/
theorem smallestGridGap_le (h : schedule.InRange) (hlength : 2 ≤ schedule.grid.length) :
    ∃ gap : ℤ, (smallestGridGapSeconds schedule.grid).toInt = gap * 60 ∧
      ∀ p ∈ schedule.grid, ∀ q ∈ schedule.grid,
        (p.minuteOfDay < q.minuteOfDay → gap ≤ q.minuteOfDay - p.minuteOfDay) ∧
        gap ≤ 1440 - p.minuteOfDay + q.minuteOfDay := by
  have hsorted := sorted_grid h
  obtain ⟨l, hl⟩ : ∃ l, (schedule.grid.map fun point => point.hour * 60 + point.minute) = l :=
    ⟨_, rfl⟩
  have hmem : ∀ p ∈ schedule.grid, p.hour * 60 + p.minute ∈ l := fun p hp =>
    hl ▸ mem_map_of_mem hp
  have hrange : ∀ v ∈ l, 0 ≤ v.toInt ∧ v.toInt < 1440 := by
    intro v hv
    rw [← hl] at hv
    obtain ⟨p, hp, rfl⟩ := mem_map.mp hv
    have hread := toInt_minuteOfDay h hp
    omega
  rw [hl] at hsorted
  have hne : l ≠ [] := by
    rintro rfl
    rw [map_eq_nil_iff] at hl
    rw [hl] at hlength
    cases hlength
  have hfirst := hrange _ (ends_mem hne).1
  have hlast := hrange _ (ends_mem hne).2
  have hwrap : (1440 - l.getLastD 0 + l.headD 0).toInt =
      1440 - (l.getLastD 0).toInt + (l.headD 0).toInt := by
    have hday : (1440 : Int64).toInt = 1440 := rfl
    have hrest : (1440 - l.getLastD 0).toInt = 1440 - (l.getLastD 0).toInt := by
      rw [Word.toInt_sub] <;> omega
    rw [Word.toInt_add] <;> omega
  obtain ⟨hle, hpairs⟩ := smallestGap_le hsorted hrange (1440 - l.getLastD 0 + l.headD 0)
  have hpos : 0 < (smallestGap (1440 - l.getLastD 0 + l.headD 0) l).toInt :=
    smallestGap_pos (by omega)
  refine ⟨(smallestGap (1440 - l.getLastD 0 + l.headD 0) l).toInt, ?_, ?_⟩
  · unfold smallestGridGapSeconds
    have hlength' : ¬ schedule.grid.length < 2 := by omega
    have hbetween := between_of_sorted hsorted (ends_mem hne).1
    have hsixty : (60 : Int64).toInt = 60 := rfl
    rw [if_neg hlength']
    rw [hl, Int64.toInt_mul, hsixty]
    apply Int.bmod_eq_of_le <;> omega
  · intro p hp q hq
    have hreadp := (toInt_minuteOfDay h hp).1
    have hreadq := (toInt_minuteOfDay h hq).1
    have hbetweenp := between_of_sorted hsorted (hmem p hp)
    have hbetweenq := between_of_sorted hsorted (hmem q hq)
    rw [hreadp] at hbetweenp
    rw [hreadq] at hbetweenq
    refine ⟨fun hlt => ?_, by omega⟩
    have := hpairs _ (hmem p hp) _ (hmem q hq) (by omega)
    omega

/-- **Due minutes are not closer than the gap of the grid**, as the clocks show them. -/
theorem gap_le_of_due (h : schedule.InRange) (hlength : 2 ≤ schedule.grid.length) {t u : ℤ}
    (hminute : minute ∣ t) (hdue : schedule.Due t) (hminute' : minute ∣ u)
    (hdue' : schedule.Due u) (hlt : t < u)
    (hsame : schedule.location.offset (t / second) = schedule.location.offset (u / second)) :
    (smallestGridGapSeconds schedule.grid).toInt * second ≤ u - t := by
  obtain ⟨gap, hgap, hdistance⟩ := smallestGridGap_le h hlength
  obtain ⟨m, rfl⟩ := hminute
  obtain ⟨n, rfl⟩ := hminute'
  have hseconds : ∀ k, minute * k / second = 60 * k := by
    intro k
    unfold minute
    rw [mul_right_comm, mul_second_ediv]
  rw [hseconds, hseconds] at hsame
  have hmn : m < n := by
    by_contra hle
    have := Int.mul_le_mul_of_nonneg_left (not_lt.mp hle) (show 0 ≤ minute by decide)
    omega
  obtain ⟨p, hp, hphour, hpminute⟩ := grid_of_due hdue rfl
  obtain ⟨q, hq, hqhour, hqminute⟩ := grid_of_due hdue' rfl
  rw [hseconds] at hphour hpminute hqhour hqminute
  rw [← hsame] at hqhour hqminute
  obtain ⟨hday, hnight⟩ := hdistance p hp q hq
  have hminutes : gap ≤ n - m := by
    unfold GridPoint.minuteOfDay at hday hnight
    generalize schedule.location.offset (60 * m) = offset at *
    by_cases hsameDay : (60 * m + offset) / 86400 = (60 * n + offset) / 86400
    · have := hday (by omega)
      omega
    · omega
  rw [hgap]
  have := Int.mul_le_mul_of_nonneg_right hminutes (show 0 ≤ minute by decide)
  have hsplit : gap * 60 * second = gap * minute := by
    unfold minute
    ring
  have hdiff : minute * n - minute * m = (n - m) * minute := by ring
  rw [hsplit, hdiff]
  exact this

end grids

/-- A repetition is five minutes to an hour long, and longer than five minutes only up to the gap
of the grid. -/
theorem repetitionSeconds_bounds (grid : List GridPoint) :
    300 ≤ (repetitionSeconds grid).toInt ∧ (repetitionSeconds grid).toInt ≤ 3600 ∧
      (repetitionSeconds grid).toInt ≤ max 300 (smallestGridGapSeconds grid).toInt := by
  have hmin : taskTriggerMinRepetitionSeconds.toInt = 300 := rfl
  have hmax : taskTriggerMaxRepetitionSeconds.toInt = 3600 := rfl
  unfold repetitionSeconds
  simp only [gt_iff_lt, Int64.lt_iff_toInt_lt]
  split_ifs <;> omega

/-! ### The plan covers the schedule -/

section coverage

variable {loadLocation : Text → Option Location} {system : Location} {spec : ScheduleSpec}
  {now : ℤ} {triggers : List TaskTrigger} {schedule : CronSchedule}

/-- What the plan of a cron expression covers. -/
structure CronCovered (system : Location) (schedule : CronSchedule) (now : ℤ)
    (triggers : List TaskTrigger) : Prop where
  /-- Few times a day: whole days behind the start of a daily trigger. -/
  daily : schedule.grid.length ≤ taskTriggerMaxExactDailyTriggers → ∀ t c,
    Steady system schedule.location now t c → now < t → minute ∣ t → schedule.Due t →
      ∃ trigger ∈ triggers, trigger.kind = .daily ∧ ∃ n : ℕ, t = trigger.startAt + n * day
  /-- Many times a day: woken at, or less than one repetition behind. -/
  repetition : taskTriggerMaxExactDailyTriggers < schedule.grid.length → ∃ trigger,
    triggers = [trigger] ∧ (∀ t, now < t → minute ∣ t → schedule.Due t → trigger.Wakes t) ∧
      300 ≤ trigger.repetitionIntervalSeconds.toInt ∧
      trigger.repetitionIntervalSeconds.toInt ≤ 3600 ∧
      (schedule.InRange → ∀ t u, minute ∣ t → schedule.Due t → minute ∣ u → schedule.Due u →
        t < u → schedule.location.offset (t / second) = schedule.location.offset (u / second) →
        trigger.repetitionIntervalSeconds.toInt * second ≤ max (300 * second) (u - t))

theorem repetition_le_of_gap {repetition gap distance : ℤ} (hle : repetition ≤ max 300 gap)
    (hgap : gap * second ≤ distance) : repetition * second ≤ max (300 * second) distance := by
  have hsecond : (0 : ℤ) < second := by decide
  cases le_max_iff.mp hle with
  | inl hshort =>
    exact le_max_of_le_left (Int.mul_le_mul_of_nonneg_right hshort hsecond.le)
  | inr hlong =>
    exact le_max_of_le_right ((Int.mul_le_mul_of_nonneg_right hlong hsecond.le).trans hgap)

/-- **The triggers of a cron expression.** -/
theorem cron_covered (hplan : cronTaskTriggers loadLocation system spec now = .ok triggers) :
    ∃ schedule, parseCronSchedule loadLocation spec.cronExpression spec.timezone = .ok schedule ∧
      CronCovered system schedule now triggers := by
  unfold cronTaskTriggers at hplan
  obtain ⟨schedule, hschedule, hrest⟩ := Fallible.bind_eq_ok.mp hplan
  have haccepted := Fallible.mapError_eq_ok.mp hschedule
  refine ⟨schedule, haccepted, ?_⟩
  change (if schedule.grid.length = 0 then _ else if schedule.grid.length >
    taskTriggerMaxExactDailyTriggers then _ else _) = _ at hrest
  split at hrest
  · cases hrest
  · split at hrest
    · rename_i hmany
      obtain ⟨startAt, hstart, hplan⟩ := Fallible.bind_eq_ok.mp hrest
      have hleast := (nextCronTime_ok haccepted (Fallible.mapError_eq_ok.mp hstart)).1
      obtain ⟨hlow, hhigh, hgap⟩ := repetitionSeconds_bounds schedule.grid
      change Except.ok [repetitionTrigger startAt (repetitionSeconds schedule.grid)] = _ at hplan
      generalize repetitionSeconds schedule.grid = seconds at *
      cases hplan
      have hpos : 0 < seconds.toInt := by omega
      refine ⟨fun hfew => absurd hfew (not_le.mpr hmany), fun _ =>
        ⟨repetitionTrigger startAt seconds, rfl, ?_, hlow, hhigh, ?_⟩⟩
      · intro t hlt hminute hdue
        have hle : startAt ≤ t := hleast.2 ⟨hlt, hminute, hdue⟩
        exact wakes_of_repetition hpos hle
      · intro hrange t u hminute hdue hminute' hdue' hlt hsame
        have htwo : 2 ≤ schedule.grid.length := by
          unfold taskTriggerMaxExactDailyTriggers at hmany
          omega
        exact repetition_le_of_gap hgap
          (gap_le_of_due hrange htwo hminute hdue hminute' hdue' hlt hsame)
    · rename_i hfew
      cases hrest
      refine ⟨fun _ t c hsteady hlt hminute hdue => ?_, fun hmany => absurd hmany hfew⟩
      obtain ⟨trigger, htrigger, n, hn⟩ := daily_covered hsteady hlt hminute hdue
      obtain ⟨point, _, rfl⟩ := mem_map.mp htrigger
      exact ⟨_, htrigger, rfl, n, hn⟩

/-- What a plan covers: the kinds that have no schedule of their own are left out. -/
structure Covered (loadLocation : Text → Option Location) (system : Location)
    (spec : ScheduleSpec) (now : ℤ) (triggers : List TaskTrigger) : Prop where
  none : spec.kind = .manual ∨ spec.kind = .continuous → triggers = []
  once : spec.kind = .once → ∃ trigger ∈ triggers, trigger.Fires (ofUnixMilli spec.runAt)
  interval : spec.kind = .interval → 0 < spec.anchorAt → PointFits spec now →
    ∀ t ∈ intervalGrid spec.anchor spec.interval, now < t →
      ∃ trigger ∈ triggers,
        ((86400 ∣ spec.intervalSeconds.toInt ∨ spec.intervalSeconds.toInt ∣ 86400) →
          trigger.Fires t) ∧
        (trigger.Fires t ∨ trigger.Wakes t)
  cron : spec.kind = .cron → ∃ schedule,
    parseCronSchedule loadLocation spec.cronExpression spec.timezone = .ok schedule ∧
      CronCovered system schedule now triggers

/-- **The triggers cover the schedule**: at every due time a trigger fires, or fires less than one
repetition behind it. -/
theorem triggers_cover_schedule
    (hplan : taskTriggersForSchedule loadLocation system spec now = .ok triggers) :
    Covered loadLocation system spec now triggers := by
  unfold taskTriggersForSchedule at hplan
  constructor
  · rintro (hkind | hkind)
    · rw [hkind] at hplan
      cases hplan
      rfl
    · rw [hkind] at hplan
      cases hplan
      rfl
  · intro hkind
    rw [hkind] at hplan
    dsimp only at hplan
    split at hplan
    · cases hplan
    · cases hplan
      exact ⟨_, mem_singleton_self _, .time rfl⟩
  · intro hkind hanchor hfits t ht hlt
    rw [hkind] at hplan
    exact interval_covered hplan hanchor hfits ht hlt
  · intro hkind
    rw [hkind] at hplan
    exact cron_covered hplan

end coverage

/-- A schedule that follows a cron expression in UTC. -/
def cronSpec (cronExpression : Text) : ScheduleSpec :=
  { kind := .cron, cronExpression, timezone := bytes "UTC", runAt := 0, intervalSeconds := 0,
    anchorAt := 0, misfirePolicy := bytes "skip" }

/-- Both halves of every hour, planned on Thursday, 30 May 2024, at 09:27:31. -/
theorem triggers_cover_schedule_halves :
    (taskTriggersForSchedule utcOnly ⟨fun _ => 0⟩ (cronSpec (bytes "0,30 * * * *"))
        1717061251000000000).toOption = some [repetitionTrigger 1717061400000000000 1800] ∧
      Covered utcOnly ⟨fun _ => 0⟩ (cronSpec (bytes "0,30 * * * *")) 1717061251000000000
        [repetitionTrigger 1717061400000000000 1800] := by
  have hplan : (taskTriggersForSchedule utcOnly ⟨fun _ => 0⟩ (cronSpec (bytes "0,30 * * * *"))
      1717061251000000000).toOption = some [repetitionTrigger 1717061400000000000 1800] := by
    decide +kernel
  refine ⟨hplan, ?_⟩
  cases hresult : taskTriggersForSchedule utcOnly ⟨fun _ => 0⟩ (cronSpec (bytes "0,30 * * * *"))
      1717061251000000000 with
  | error err =>
    rw [hresult] at hplan
    cases hplan
  | ok triggers =>
    rw [hresult] at hplan
    cases hplan
    exact triggers_cover_schedule hresult

/-- The first four minutes of every hour are a minute apart, but the repetition is five minutes
long, and does not fire at the second one. -/
theorem triggers_cover_schedule_apart :
    (taskTriggersForSchedule utcOnly ⟨fun _ => 0⟩ (cronSpec (bytes "0-3 * * * *"))
        1717061251000000000).toOption = some [repetitionTrigger 1717063200000000000 300] ∧
      (∃ schedule, parseCronSchedule utcOnly (bytes "0-3 * * * *") (bytes "UTC") = .ok schedule ∧
        schedule.Due 1717063200000000000 ∧ schedule.Due (1717063200000000000 + minute)) ∧
      minute < 300 * second ∧
      ¬ (repetitionTrigger 1717063200000000000 300).Fires (1717063200000000000 + minute) := by
  have hdue : (parseCronSchedule utcOnly (bytes "0-3 * * * *") (bytes "UTC")).toOption.any
      (fun schedule => schedule.matches 1717063200000000000 &&
        schedule.matches (1717063200000000000 + minute)) = true := by
    decide
  refine ⟨by decide +kernel, ?_, by decide, ?_⟩
  · cases hparse : parseCronSchedule utcOnly (bytes "0-3 * * * *") (bytes "UTC") with
    | error err =>
      rw [hparse] at hdue
      cases hdue
    | ok schedule =>
      rw [hparse] at hdue
      obtain ⟨hfirst, hsecond⟩ := Bool.and_eq_true_iff.mp hdue
      exact ⟨schedule, rfl, (schedule.matches_iff _).mp hfirst, (schedule.matches_iff _).mp hsecond⟩
  · intro hfires
    generalize htime : 1717063200000000000 + minute = t at hfires
    have hseconds : (300 : Int64).toInt = 300 := rfl
    cases hfires with
    | time hkind => cases hkind
    | daily hkind => cases hkind
    | repetition _ days n _ =>
      unfold repetitionTrigger minute day second at htime
      dsimp only at htime
      rw [hseconds] at htime
      omega

end GoNavi.Syncjob
